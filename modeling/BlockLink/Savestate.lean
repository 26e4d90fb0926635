import BlockLink.Link.Basic
import BlockLink.Savestate.Format

/-!
Savestates: what changes on a link, as bytes. The settings of the link are not
stored. Bytes behind a complete value are ignored, and nothing is checked beyond
the format itself, so any watermark is accepted.
-/

namespace BlockLink.Savestate

open Format

def block : Format Block :=
  (word32.pair (word32.pair (word32.pair word32))).view
    (fun (word0, word1, word2, word3) => ⟨word0, word1, word2, word3⟩)
    (fun value => (value.word0, value.word1, value.word2, value.word3))

/-- A side is written as its index. -/
def side : Format Side :=
  word32.refine
    (fun index =>
      match Side.ofIndex? index.toNat with
      | some value => .ok value
      | none => .error (.invalidVariant index))
    (fun value => UInt32.ofNat value.index)

def entry : Format Entry :=
  (block.pair (bool.pair word64)).view
    (fun (block, final, readyAt) => ⟨block, final, readyAt⟩)
    (fun value => (value.block, value.final, value.readyAt))

/-- The number of entries and then the entries. One entry more than fits is still read
before the number is rejected, so an offence within these entries comes first. -/
def fifo : Format Fifo where
  write value := word64.write (UInt64.ofNat value.size) ++ entry.writeAll value.entries
  read bytes := do
    let (size, rest) ← word64.read bytes
    let (entries, rest) ← entry.readAll (min size.toNat (Fifo.depth + 1)) rest
    if fits : entries.length ≤ Fifo.depth then return (⟨entries, fits⟩, rest)
    else .error .overlongFifo

def station : Format Station :=
  (fifo.pair (fifo.pair (word64.pair (word64.pair (bool.pair (bool.pair bool)))))).view
    (fun (tx, rx, txWatermark, rxWatermark, messageOpen, boundaryPending, messageLoaded) =>
      { tx, rx, txWatermark, rxWatermark, messageOpen, boundaryPending, messageLoaded })
    (fun value => (value.tx, value.rx, value.txWatermark, value.rxWatermark, value.messageOpen,
      value.boundaryPending, value.messageLoaded))

/-- A value for each side, the left one first. -/
def perSide {α : Type} (format : Format α) : Format (PerSide α) :=
  (format.pair format).view
    (fun (left, right) => ⟨left, right⟩)
    (fun value => (value.left, value.right))

def snapshot : Format Snapshot :=
  ((perSide station).pair ((perSide block).pair word64)).view
    (fun (stations, staged, time) => { stations, staged, time })
    (fun value => (value.stations, value.staged, value.time))

end BlockLink.Savestate

namespace BlockLink.Link

/-- The savestate of a link. -/
def save (link : Link) : List UInt8 := Savestate.snapshot.write link.toSnapshot

/-- Replace the content of a link by a savestate and keep its settings. Bytes that are
rejected leave the link as it was. -/
def restore (bytes : List UInt8) : Step Event Link (Except Savestate.Malformed Unit) :=
  fun link =>
    match Savestate.snapshot.read bytes with
    | .ok (content, _) => ⟨.ok (), { link with toSnapshot := content }, []⟩
    | .error malformed => ⟨.error malformed, link, []⟩

end BlockLink.Link
