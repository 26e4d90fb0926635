import BlockLink.Proofs.Call
import BlockLink.Proofs.Checked

/-!
STATUS words and the statuses that they show.

A status is packed into thirteen bits and unpacked again with its levels held at the depth of a
FIFO. Of an arbitrary word the bits above are lost, and a level that no FIFO can have is lowered
to one that a full FIFO has. What an instance shows of itself has neither, so its STATUS word
says neither more nor less than its status.
-/

namespace BlockLink

theorem Field.toNat_isSet {field : Field} (isFlag : field.limit = 2) (word : UInt32) :
    (field.isSet word).toNat = field.get word := by
  have bound : field.get word < field.limit := Nat.mod_lt _ (by omega)
  rw [isFlag] at bound
  rw [isSet]
  rcases Nat.lt_succ_iff_lt_or_eq.mp bound with clear | set
  · rw [Nat.lt_one_iff.mp clear]; rfl
  · rw [set]; rfl

namespace StatusWord

/-- The word without the bits above the fields, and with the levels held at the depth of a
FIFO. -/
def held (word : UInt32) : UInt32 :=
  rxLevel.put
    (txLevel.put (word &&& 0x1FFF) (min (txLevel.get word) Fifo.depth))
    (min (rxLevel.get word) Fifo.depth)

theorem toNat_held (word : UInt32) :
    (held word).toNat =
      word.toNat % 64 + 64 * min (txLevel.get word) Fifo.depth +
        512 * min (rxLevel.get word) Fifo.depth + 4096 * (word.toNat / 4096 % 2) := by
  have fits (level : Nat) : min level Fifo.depth % 2 ^ 3 = min level Fifo.depth :=
    Nat.mod_eq_of_lt (Nat.lt_of_le_of_lt (Nat.min_le_right ..) (by decide))
  have bound : min (txLevel.get word) Fifo.depth ≤ 4 := Nat.min_le_right ..
  have cleared : (word &&& 0x1FFF).toNat = word.toNat % 2 ^ 13 := by
    rw [UInt32.toNat_and]
    exact Nat.and_two_pow_sub_one_eq_mod word.toNat 13
  rw [held, Field.toNat_put _ _ (by decide), Field.toNat_put _ _ (by decide), cleared]
  simp only [txLevel, rxLevel, fits] at bound ⊢
  generalize min (Field.get _ word) Fifo.depth = tx at bound ⊢
  generalize min (Field.get _ word) Fifo.depth = rx
  -- Each level falls into its own place between the six flags below and the one above.
  have below : word.toNat % 2 ^ 13 % 2 ^ 6 = word.toNat % 64 :=
    Nat.mod_mod_of_dvd word.toNat (by decide)
  have levels : word.toNat % 2 ^ 13 / 2 ^ (6 + 3) = word.toNat / 512 % 16 := by omega
  have above : word.toNat / 4096 % 2 = word.toNat / 512 % 16 / 8 := by omega
  have small : word.toNat % 64 < 64 := Nat.mod_lt _ (by decide)
  rw [below, levels, above]
  generalize word.toNat / 512 % 16 = upper
  generalize word.toNat % 64 = lower at small ⊢
  omega

end StatusWord

namespace Status

/-- Packing what a word shows gives the word back, without what no instance shows. -/
theorem toWord_ofWord (word : UInt32) : (ofWord word).toWord = StatusWord.held word := by
  have flags : StatusWord.tx.get word + 2 * StatusWord.txFull.get word +
      4 * StatusWord.rxFull.get word + 8 * StatusWord.txEmpty.get word +
      16 * StatusWord.txInputReady.get word + 32 * StatusWord.rxValid.get word =
        word.toNat % 64 := by
    simp only [Field.get, Field.limit, StatusWord.tx, StatusWord.txFull, StatusWord.rxFull,
      StatusWord.txEmpty, StatusWord.txInputReady, StatusWord.rxValid]
    omega
  have last : StatusWord.rxLast.get word = word.toNat / 4096 % 2 := rfl
  have isFlag : ∀ flag ∈ [StatusWord.tx, StatusWord.txFull, StatusWord.rxFull, StatusWord.txEmpty,
      StatusWord.txInputReady, StatusWord.rxValid, StatusWord.rxLast], flag.limit = 2 := by
    decide
  simp only [List.forall_mem_cons] at isFlag
  obtain ⟨tx, txFull, rxFull, txEmpty, txInputReady, rxValid, rxLast, -⟩ := isFlag
  apply UInt32.toNat_inj.mp
  rw [toNat_toWord, StatusWord.toNat_held, ← flags, ← last]
  simp only [ofWord, Field.toNat_isSet, tx, txFull, rxFull, txEmpty, txInputReady, rxValid, rxLast,
    Nat.min_assoc, Nat.min_self]

/-- The STATUS word that shows a status, put together field by field from values of eight bits
each. A value that does not fit its field is a fault. -/
def pack (status : Status) : Except Fault UInt32 :=
  Field.assignAll (status.parts.map fun part => (part.1, part.2 % 256)) 0

/-- Levels are held at the depth of a FIFO before they are cut to eight bits, so nothing is
cut off. -/
theorem pack_eq (status : Status) : status.pack = .ok status.toWord := by
  have flag (shown : Bool) : shown.toNat % 256 = shown.toNat := by
    cases shown <;> rfl
  have level (level : Nat) : min level Fifo.depth % 256 = min level Fifo.depth := by
    simp only [Fifo.depth]
    omega
  have uncut : (status.parts.map fun part => (part.1, part.2 % 256)) = status.parts := by
    simp only [parts, List.map_cons, List.map_nil, flag, level]
  rw [pack, uncut]
  exact status.toWordChecked_eq

end Status

namespace Station

theorem toWord_status_inj {first second : Station} :
    first.status.toWord = second.status.toWord ↔ first.status = second.status := by
  constructor
  · intro same
    have shown := congrArg Status.ofWord same
    rw [ofWord_status, ofWord_status] at shown
    exact shown
  · exact congrArg Status.toWord

end Station

/-- Packing a status and unpacking it again holds its levels at the depth of a FIFO and keeps
all else; unpacking a word and packing it again clears the bits above the fields as well. No
level makes the packing fail. The status of an instance comes back unchanged, whichever way it
is asked for, and its word tells it from every other. -/
theorem Status.word_round_trip :
    (∀ status : Status,
      ofWord status.toWord =
        { status with
          txLevel := min status.txLevel Fifo.depth
          rxLevel := min status.rxLevel Fifo.depth }) ∧
    (∀ word, (ofWord word).toWord = StatusWord.held word) ∧
    (∀ status : Status,
      status.pack = .ok status.toWord ∧
      status.toWord.toNat =
        status.txActive.toNat + 2 * status.txFull.toNat + 4 * status.rxFull.toNat +
          8 * status.txEmpty.toNat + 16 * status.txInputReady.toNat + 32 * status.rxValid.toNat +
          64 * min status.txLevel Fifo.depth + 512 * min status.rxLevel Fifo.depth +
          4096 * status.rxLast.toNat) ∧
    (∀ station : Station, ofWord station.status.toWord = station.status) ∧
    (∀ first second : Station,
      first.status.toWord = second.status.toWord ↔ first.status = second.status) ∧
    ∀ (link : Link) (route : Route) (side : Side),
      ((Link.call route side .status).run link).value =
        .ok (.status ((Link.charge.run link).state.status side)) := by
  refine ⟨ofWord_toWord, toWord_ofWord, fun status => ⟨status.pack_eq, status.toNat_toWord⟩,
    Station.ofWord_status, fun _ _ => Station.toWord_status_inj, ?_⟩
  intro link route side
  rw [Link.run_callStatus]

/-- A level field is wider than a FIFO is deep. -/
example : (Status.ofWord 0xFFFFFFFF).toWord = 0x193F := by decide

end BlockLink
