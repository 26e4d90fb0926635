import BlockLink.Proofs.Format

/-!
Savestates.

The bytes of a savestate are exactly those that were written, and what is wrong
with other bytes is told by their front. A savestate takes at most 510 bytes.
-/

namespace BlockLink

namespace Savestate

open Format

section Exactness

theorem block_exact : block.Exact :=
  (word32_exact.pair (word32_exact.pair (word32_exact.pair word32_exact))).view
    (fun _ => rfl) (fun _ => rfl)

theorem entry_exact : entry.Exact :=
  (block_exact.pair (bool_exact.pair word64_exact)).view (fun _ => rfl) (fun _ => rfl)

/-- Take the entries that were read for a FIFO, unless they are too many. -/
def fifoOf (entries : List Entry) : Reader Fifo := fun bytes =>
  if fits : entries.length ≤ Fifo.depth then .ok (⟨entries, fits⟩, bytes)
  else .error .overlongFifo

theorem fifoOf_of_le {entries : List Entry} (fits : entries.length ≤ Fifo.depth) :
    fifoOf entries = .answer ⟨entries, fits⟩ :=
  funext fun _ => dif_pos fits

theorem fifoOf_of_gt {entries : List Entry} (overlong : ¬ entries.length ≤ Fifo.depth) :
    fifoOf entries = .reject .overlongFifo :=
  funext fun _ => dif_neg overlong

theorem read_fifo :
    fifo.read =
      Reader.andThen word64.read fun size =>
        Reader.andThen (entry.readAll (min size.toNat (Fifo.depth + 1))) fifoOf :=
  rfl

theorem toNat_size (value : Fifo) : (UInt64.ofNat value.size).toNat = value.size :=
  UInt64.toNat_ofNat_of_lt' (Nat.lt_of_le_of_lt value.size_le (by decide))

theorem fifo_exact : fifo.Exact := by
  intro bytes value rest
  have written : fifo.write value ++ rest =
      word64.write (UInt64.ofNat value.size) ++ (entry.writeAll value.entries ++ rest) :=
    List.append_assoc ..
  have bound : value.entries.length ≤ Fifo.depth := value.size_le
  rw [written, read_fifo]
  simp only [Reader.andThen_eq_ok_iff, word64_exact _, readAll_iff entry_exact]
  constructor
  · rintro ⟨size, _, rfl, entries, _, ⟨length, rfl⟩, taken⟩
    by_cases fits : entries.length ≤ Fifo.depth
    · rw [fifoOf_of_le fits] at taken
      obtain ⟨rfl, rfl⟩ := Prod.mk.inj (Except.ok.inj taken)
      have same : size.toNat = entries.length := by omega
      rw [Fifo.size, ← same, UInt64.ofNat_toNat]
    · rw [fifoOf_of_gt fits] at taken
      cases taken
  · rintro rfl
    refine ⟨_, _, rfl, value.entries, rest, ⟨?_, rfl⟩, ?_⟩
    · rw [toNat_size, Fifo.size]
      omega
    · rw [fifoOf_of_le bound]
      rfl

theorem station_exact : station.Exact :=
  (fifo_exact.pair (fifo_exact.pair (word64_exact.pair (word64_exact.pair (bool_exact.pair
    (bool_exact.pair bool_exact)))))).view (fun _ => rfl) (fun _ => rfl)

theorem perSide_exact {α : Type} {format : Format α} (exact : format.Exact) :
    (perSide format).Exact :=
  (exact.pair exact).view (fun _ => rfl) (fun _ => rfl)

theorem snapshot_exact : snapshot.Exact :=
  ((perSide_exact station_exact).pair ((perSide_exact block_exact).pair word64_exact)).view
    (fun _ => rfl) (fun _ => rfl)

end Exactness

section Layout

def blockLayout (block : Block) : List UInt8 :=
  block.toList.flatMap fun word => littleEndian 4 word.toNat

def entryLayout (entry : Entry) : List UInt8 :=
  blockLayout entry.block ++ UInt8.ofNat entry.final.toNat ::
    littleEndian 8 entry.readyAt.toNat

def fifoLayout (fifo : Fifo) : List UInt8 :=
  littleEndian 8 fifo.size ++ fifo.entries.flatMap entryLayout

def stationLayout (station : Station) : List UInt8 :=
  fifoLayout station.tx ++ fifoLayout station.rx ++ littleEndian 8 station.txWatermark.toNat ++
    littleEndian 8 station.rxWatermark.toNat ++
    [station.messageOpen, station.boundaryPending, station.messageLoaded].map fun flag =>
      UInt8.ofNat flag.toNat

/-- The bytes of a savestate, field by field. -/
def snapshotLayout (content : Snapshot) : List UInt8 :=
  stationLayout content.stations.left ++ stationLayout content.stations.right ++
    blockLayout content.staged.left ++ blockLayout content.staged.right ++
    littleEndian 8 content.time.toNat

theorem block_write (value : Block) : block.write value = blockLayout value := by
  simp [block, blockLayout, Block.toList, write_view, write_pair, word32_write]

theorem entry_write (value : Entry) : entry.write value = entryLayout value := by
  simp [entry, entryLayout, write_view, write_pair, block_write, bool_write, word64_write]

theorem fifo_write (value : Fifo) : fifo.write value = fifoLayout value := by
  have written : fifo.write value =
      word64.write (UInt64.ofNat value.size) ++ value.entries.flatMap entry.write :=
    rfl
  rw [written, word64_write, toNat_size, funext entry_write, fifoLayout]

theorem station_write (value : Station) : station.write value = stationLayout value := by
  simp [station, stationLayout, write_view, write_pair, fifo_write, word64_write, bool_write]

theorem snapshot_write (value : Snapshot) : snapshot.write value = snapshotLayout value := by
  simp [snapshot, perSide, snapshotLayout, write_view, write_pair, station_write, block_write,
    word64_write]

end Layout

section Bounds

theorem block_orderly : block.Orderly 16 16 :=
  ((word32_orderly.pair (word32_orderly.pair (word32_orderly.pair word32_orderly))).view
    _ _).weaken (by decide) (by decide)

theorem entry_orderly : entry.Orderly 25 25 :=
  ((block_orderly.pair (bool_orderly.pair word64_orderly)).view _ _).weaken
    (by decide) (by decide)

theorem fifoOf_orderly (entries : List Entry) : (fifoOf entries).Orderly 0 0 := by
  by_cases fits : entries.length ≤ Fifo.depth
  · rw [fifoOf_of_le fits]
    exact .answer _
  · rw [fifoOf_of_gt fits]
    exact .overlong

/-- A FIFO takes up to 108 bytes, but a fifth entry is asked for before it is rejected. -/
theorem fifo_orderly : fifo.Orderly 108 133 := by
  have entries (size : UInt64) : Reader.Orderly
      (Reader.andThen (entry.readAll (min size.toNat (Fifo.depth + 1))) fifoOf) 125 125 := by
    have few : min size.toNat (Fifo.depth + 1) * 25 ≤ 125 := by
      rw [Fifo.depth]
      omega
    have read := (entry_orderly.readAll (Nat.le_refl _) _).weaken few few
    exact read.andThen fifoOf_orderly (Nat.le_refl _) (.inl rfl)
  have loose : fifo.Orderly 133 133 :=
    Reader.Orderly.andThen word64_orderly entries (by decide) (.inr (by decide))
  refine loose.sharpen ?_
  intro bytes value shown
  have size := word64_orderly.length_le (word64_exact.read_write (UInt64.ofNat value.size))
  have listed := (entry_orderly.readAll (Nat.le_refl _) _).length_le
    ((readAll_iff entry_exact _ value.entries []).mpr ⟨rfl, (List.append_nil _).symm⟩)
  have few : value.entries.length ≤ 4 := value.size_le
  rw [(fifo_exact bytes value []).mp shown, List.append_nil, fifo, List.length_append]
  omega

example :
    fifo.read (5 :: List.replicate 131 0) = .error .unexpectedEnd ∧
      fifo.read (5 :: List.replicate 132 0) = .error .overlongFifo :=
  ⟨by rfl, by rfl⟩

theorem station_orderly : station.Orderly 235 241 :=
  ((fifo_orderly.pair (fifo_orderly.pair (word64_orderly.pair (word64_orderly.pair
    (bool_orderly.pair (bool_orderly.pair bool_orderly)))))).view _ _).weaken
    (by decide) (by decide)

theorem perSide_orderly {α : Type} {format : Format α} {most need : Nat}
    (orderly : format.Orderly most need) :
    (perSide format).Orderly (most + most) (max need (most + need)) :=
  (orderly.pair orderly).view _ _

theorem snapshot_orderly : snapshot.Orderly 510 510 :=
  (((perSide_orderly station_orderly).pair ((perSide_orderly block_orderly).pair
    word64_orderly)).view _ _).weaken (by decide) (by decide)

end Bounds

end Savestate

namespace Link

open Savestate

variable (link : Link) (bytes : List UInt8)

theorem run_restore_of_ok {bytes : List UInt8} {content : Snapshot} {rest : List UInt8}
    (shown : snapshot.read bytes = .ok (content, rest)) :
    (restore bytes).run link = ⟨.ok (), { link with toSnapshot := content }, []⟩ := by
  simp [Step.run, restore, shown]

theorem run_restore_of_error {bytes : List UInt8} {malformed : Malformed}
    (shown : snapshot.read bytes = .error malformed) :
    (restore bytes).run link = ⟨.error malformed, link, []⟩ := by
  simp [Step.run, restore, shown]

theorem value_restore_eq_ok_iff :
    ((restore bytes).run link).value = .ok () ↔
      ∃ content rest, snapshot.read bytes = .ok (content, rest) := by
  cases shown : snapshot.read bytes with
  | ok answered =>
    rw [link.run_restore_of_ok shown]
    exact ⟨fun _ => ⟨answered.1, answered.2, rfl⟩, fun _ => rfl⟩
  | error malformed => simp [link.run_restore_of_error shown]

theorem value_restore_eq_error_iff {malformed : Malformed} :
    ((restore bytes).run link).value = .error malformed ↔
      snapshot.read bytes = .error malformed := by
  cases shown : snapshot.read bytes with
  | ok answered => simp [link.run_restore_of_ok shown]
  | error other => simp [link.run_restore_of_error shown]

theorem run_restore_save (saved : Link) :
    (restore saved.save).run link = ⟨.ok (), { saved with config := link.config }, []⟩ :=
  link.run_restore_of_ok (snapshot_exact.read_write saved.toSnapshot)

/-- An accepted savestate begins with what the link saves afterwards. -/
theorem restored_iff_save_prefix :
    ((restore bytes).run link).value = .ok () ↔
      ((restore bytes).run link).state.save <+: bytes := by
  cases shown : snapshot.read bytes with
  | ok answered =>
    obtain ⟨content, rest⟩ := answered
    rw [link.run_restore_of_ok shown, (snapshot_exact _ _ _).mp shown]
    exact ⟨fun _ => List.prefix_append .., fun _ => rfl⟩
  | error malformed =>
    rw [link.run_restore_of_error shown]
    refine ⟨nofun, ?_⟩
    rintro ⟨rest, written⟩
    rw [(snapshot_exact bytes link.toSnapshot rest).mpr written.symm] at shown
    cases shown

/-- A savestate is read as what was saved and as nothing else, and the bytes of no other
content begin like it. -/
theorem savestate_exact :
    (∀ content, snapshot.write content = snapshotLayout content) ∧
    (∀ content rest,
      snapshot.read bytes = .ok (content, rest) ↔ bytes = snapshot.write content ++ rest) ∧
    (∀ saved : Link, snapshot.read saved.save = .ok (saved.toSnapshot, [])) ∧
    (∀ first second : Snapshot,
      snapshot.write first <+: snapshot.write second ↔ first = second) ∧
    (((restore bytes).run link).value = .ok () ↔
      ((restore bytes).run link).state.save <+: bytes) ∧
    ∀ saved : Link,
      (restore saved.save).run link = ⟨.ok (), { saved with config := link.config }, []⟩ := by
  refine ⟨snapshot_write, snapshot_exact bytes, fun saved => snapshot_exact.read_write _, ?_,
    restored_iff_save_prefix link bytes, run_restore_save link⟩
  intro first second
  refine ⟨snapshot_exact.eq_of_prefix, ?_⟩
  rintro rfl
  exact List.prefix_rfl

theorem run_restore_append (more : List UInt8)
    (decided : ((restore bytes).run link).value ≠ .error .unexpectedEnd) :
    (restore (bytes ++ more)).run link = (restore bytes).run link := by
  cases shown : snapshot.read bytes with
  | ok answered =>
    obtain ⟨content, rest⟩ := answered
    rw [link.run_restore_of_ok shown, link.run_restore_of_ok (snapshot_orderly.append shown more)]
  | error malformed =>
    rw [link.run_restore_of_error shown] at decided
    have final : malformed ≠ .unexpectedEnd := fun atEnd => decided (congrArg _ atEnd)
    rw [link.run_restore_of_error shown,
      link.run_restore_of_error (snapshot_orderly.settled shown final more)]

theorem exists_run_restore_zeros
    (short : ((restore bytes).run link).value = .error .unexpectedEnd) :
    ∃ count,
      let filled := ((restore (bytes ++ List.replicate count 0)).run link).value
      filled = .ok () ∨ filled = .error .overlongFifo := by
  obtain ⟨count, ends⟩ :=
    snapshot_orderly.completes (.inr ((link.value_restore_eq_error_iff bytes).mp short))
  refine ⟨count, ends.imp ?_ (link.value_restore_eq_error_iff _).mpr⟩
  rintro ⟨⟨content, rest⟩, shown⟩
  exact (link.value_restore_eq_ok_iff _).mpr ⟨content, rest, shown⟩

/-- What is wrong with a savestate is told by its front, and nothing is asked of bytes behind
the first 510. A link that rejects a savestate stays as it is. -/
theorem restore_decided_by_front (more : List UInt8) :
    let outcome := (restore bytes).run link
    (outcome.value ≠ .error .unexpectedEnd → (restore (bytes ++ more)).run link = outcome) ∧
    (outcome.value = .error .unexpectedEnd →
      ∃ count,
        let filled := ((restore (bytes ++ List.replicate count 0)).run link).value
        filled = .ok () ∨ filled = .error .overlongFifo) ∧
    (∀ saved : Link, bytes <+: saved.save → bytes ≠ saved.save →
      outcome.value = .error .unexpectedEnd) ∧
    (510 ≤ bytes.length → outcome.value ≠ .error .unexpectedEnd) ∧
    (∀ malformed, outcome.value = .error malformed → outcome.state = link) ∧
    Malformed.unexpectedEnd.reason = "io error: unexpected end of file" ∧
    Malformed.overlongFifo.reason =
      "invalid length 5, expected an array with no more than 4 items" := by
  intro outcome
  refine ⟨link.run_restore_append bytes more, link.exists_run_restore_zeros bytes, ?_, ?_, ?_,
    rfl, rfl⟩
  · intro saved inside strict
    exact (link.value_restore_eq_error_iff bytes).mpr
      (snapshot_exact.read_of_prefix snapshot_orderly inside strict)
  · intro long short
    have few := snapshot_orderly.short ((link.value_restore_eq_error_iff bytes).mp short)
    omega
  · intro malformed rejected
    have shown := (link.value_restore_eq_error_iff bytes).mp rejected
    exact congrArg Outcome.state (link.run_restore_of_error shown)

end Link

end BlockLink
