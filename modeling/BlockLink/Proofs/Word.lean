import BlockLink.Link.Window

/-!
Register words.

Replacing a field of a word changes the bits of that field and no others, and
the words that an instance shows give back what they were built from.
-/

namespace BlockLink

namespace Field

/-- Whether the field lies inside a word. -/
def Fits (field : Field) : Prop := field.offset + field.width ≤ 32

instance (field : Field) : Decidable field.Fits :=
  inferInstanceAs (Decidable (_ ≤ _))

def Apart (field other : Field) : Prop :=
  field.offset + field.width ≤ other.offset ∨ other.offset + other.width ≤ field.offset

instance (field other : Field) : Decidable (field.Apart other) :=
  inferInstanceAs (Decidable (_ ∨ _))

variable {field other : Field} (word : UInt32) (value : Nat)

theorem testBit_get (index : Nat) :
    (field.get word).testBit index =
      (decide (index < field.width) && word.toNat.testBit (index + field.offset)) := by
  rw [get, limit, Nat.testBit_mod_two_pow, Nat.testBit_div_two_pow]

/-- Three parts that fit next to each other make a word. -/
theorem parts_lt {upper middle low : Nat} (fits : field.Fits)
    (high : upper < 2 ^ (32 - (field.offset + field.width))) (inside : middle < 2 ^ field.width)
    (below : low < 2 ^ field.offset) :
    2 ^ field.offset * (2 ^ field.width * upper + middle) + low < 2 ^ 32 := by
  have spare : 2 ^ field.offset * (2 ^ field.width * 2 ^ (32 - (field.offset + field.width))) =
      2 ^ 32 := by
    rw [← Nat.mul_assoc, ← Nat.pow_add, ← Nat.pow_add, Nat.add_sub_cancel' fits]
  calc 2 ^ field.offset * (2 ^ field.width * upper + middle) + low
    _ < 2 ^ field.offset * (2 ^ field.width * upper + middle + 1) := by
      rw [Nat.mul_succ]
      omega
    _ ≤ 2 ^ field.offset * (2 ^ field.width * (upper + 1)) := by
      refine Nat.mul_le_mul_left _ ?_
      rw [Nat.mul_succ]
      omega
    _ ≤ 2 ^ field.offset * (2 ^ field.width * 2 ^ (32 - (field.offset + field.width))) :=
      Nat.mul_le_mul_left _ (Nat.mul_le_mul_left _ high)
    _ = 2 ^ 32 := spare

theorem toNat_put (fits : field.Fits) :
    (field.put word value).toNat =
      2 ^ field.offset *
          (2 ^ field.width * (word.toNat / 2 ^ (field.offset + field.width)) +
            value % 2 ^ field.width) +
        word.toNat % 2 ^ field.offset := by
  have above : word.toNat / 2 ^ field.offset / 2 ^ field.width =
      word.toNat / 2 ^ (field.offset + field.width) := by
    rw [Nat.div_div_eq_div_mul, Nat.pow_add]
  have high : word.toNat / 2 ^ (field.offset + field.width) <
      2 ^ (32 - (field.offset + field.width)) := by
    rw [Nat.div_lt_iff_lt_mul (Nat.two_pow_pos _), ← Nat.pow_add, Nat.sub_add_cancel fits]
    exact word.toNat_lt
  have bound := parts_lt fits high (Nat.mod_lt value (Nat.two_pow_pos _))
    (Nat.mod_lt word.toNat (Nat.two_pow_pos _))
  have outer := Nat.div_add_mod word.toNat (2 ^ field.offset)
  have inner := Nat.div_add_mod (word.toNat / 2 ^ field.offset) (2 ^ field.width)
  rw [above] at inner
  rw [← inner, Nat.mul_add] at outer
  rw [put, get, limit, UInt32.toNat_ofNat', ← Nat.mod_eq_of_lt bound]
  congr 1
  rw [Nat.mul_add, Nat.mul_comm _ (2 ^ field.offset), Nat.mul_comm _ (2 ^ field.offset)]
  omega

/-- Replacing a field changes its own bits, to those of the value, and no others. -/
theorem testBit_put (fits : field.Fits) (index : Nat) :
    (field.put word value).toNat.testBit index =
      if field.offset ≤ index ∧ index < field.offset + field.width then
        value.testBit (index - field.offset)
      else word.toNat.testBit index := by
  rw [toNat_put word value fits,
    Nat.testBit_two_pow_mul_add _ (Nat.mod_lt _ (Nat.two_pow_pos _)),
    Nat.testBit_two_pow_mul_add _ (Nat.mod_lt _ (Nat.two_pow_pos _)),
    Nat.testBit_mod_two_pow, Nat.testBit_mod_two_pow, Nat.testBit_div_two_pow]
  by_cases below : index < field.offset
  · have outside : ¬ (field.offset ≤ index ∧ index < field.offset + field.width) := by omega
    simp [below, outside]
  · by_cases inside : index - field.offset < field.width
    · have covered : field.offset ≤ index ∧ index < field.offset + field.width := by omega
      simp [below, inside, covered]
    · have outside : ¬ (field.offset ≤ index ∧ index < field.offset + field.width) := by omega
      have place : index - field.offset - field.width + (field.offset + field.width) = index := by
        omega
      simp [below, inside, outside, place]

theorem assign_of_lt {value : Nat} (small : value < field.limit) :
    field.assign word value = .ok (field.put word value) :=
  if_pos small

theorem get_put_self (fits : field.Fits) :
    field.get (field.put word value) = value % field.limit := by
  apply Nat.eq_of_testBit_eq
  intro index
  rw [testBit_get, testBit_put word value fits, limit, Nat.testBit_mod_two_pow]
  by_cases inside : index < field.width
  · have covered : field.offset ≤ index + field.offset ∧
        index + field.offset < field.offset + field.width := by omega
    simp [inside, covered]
  · simp [inside]

theorem get_put_of_apart (fits : field.Fits) (apart : field.Apart other) :
    other.get (field.put word value) = other.get word := by
  apply Nat.eq_of_testBit_eq
  intro index
  rw [testBit_get, testBit_get, testBit_put word value fits]
  by_cases inside : index < other.width
  · have outside : ¬ (field.offset ≤ index + other.offset ∧
        index + other.offset < field.offset + field.width) := by
      rcases apart with before | behind <;> omega
    rw [if_neg outside]
  · simp [inside]

theorem isSet_put_self (fits : field.Fits) :
    field.isSet (field.put word value) = decide (value % field.limit ≠ 0) := by
  rw [isSet, get_put_self word value fits]

theorem isSet_put_of_apart (fits : field.Fits) (apart : field.Apart other) :
    other.isSet (field.put word value) = other.isSet word := by
  rw [isSet, isSet, get_put_of_apart word value fits apart]

end Field

theorem Status.flags_le (status : Status) :
    status.txActive.toNat ≤ 1 ∧ status.txFull.toNat ≤ 1 ∧ status.rxFull.toNat ≤ 1 ∧
      status.txEmpty.toNat ≤ 1 ∧ status.txInputReady.toNat ≤ 1 ∧ status.rxValid.toNat ≤ 1 ∧
      status.rxLast.toNat ≤ 1 := by
  refine ⟨?_, ?_, ?_, ?_, ?_, ?_, ?_⟩ <;> exact Bool.toNat_le _

theorem Status.toNat_toWord (status : Status) :
    status.toWord.toNat =
      status.txActive.toNat + 2 * status.txFull.toNat + 4 * status.rxFull.toNat +
        8 * status.txEmpty.toNat + 16 * status.txInputReady.toNat + 32 * status.rxValid.toNat +
        64 * min status.txLevel Fifo.depth + 512 * min status.rxLevel Fifo.depth +
        4096 * status.rxLast.toNat := by
  have flags := status.flags_le
  simp only [toWord, Field.assemble, Field.limit, StatusWord.tx, StatusWord.txFull,
    StatusWord.rxFull, StatusWord.txEmpty, StatusWord.txInputReady, StatusWord.rxValid,
    StatusWord.txLevel, StatusWord.rxLevel, StatusWord.rxLast, List.map_cons, List.map_nil,
    List.sum_cons, List.sum_nil, UInt32.toNat_ofNat', Fifo.depth]
  omega

/-- The status that a STATUS word shows is the one that it was built from, with the levels
held at the depth of a FIFO. -/
theorem Status.ofWord_toWord (status : Status) :
    ofWord status.toWord =
      { status with
        txLevel := min status.txLevel Fifo.depth
        rxLevel := min status.rxLevel Fifo.depth } := by
  have flag : ∀ (shown : Bool) (value : Nat), value = shown.toNat →
      decide (value ≠ 0) = shown := by
    rintro shown _ rfl
    cases shown <;> rfl
  have word := status.toNat_toWord
  have flags := status.flags_le
  ext
  case txLevel | rxLevel =>
    simp only [ofWord, Field.get, Field.limit, StatusWord.txLevel, StatusWord.rxLevel, Fifo.depth]
      at word ⊢
    omega
  all_goals
    refine flag _ _ ?_
    simp only [Field.get, Field.limit, StatusWord.tx, StatusWord.txFull, StatusWord.rxFull,
      StatusWord.txEmpty, StatusWord.txInputReady, StatusWord.rxValid, StatusWord.rxLast,
      Fifo.depth] at word ⊢
    omega

theorem Station.ofWord_status (station : Station) :
    Status.ofWord station.status.toWord = station.status := by
  rw [Status.ofWord_toWord]
  have tx := station.tx.size_le
  have rx := station.rx.size_le
  ext <;> simp [Station.status, Fifo.size, *]

/-- Whether the watermarks of the instance are ones that can be set. -/
def Station.Watermarked (station : Station) : Prop :=
  ∀ queue, WatermarkValid (station.watermark queue)

namespace ControlWord

/-- The fields that ask for something to be done. -/
def pulses : List Field := [txTrigger, txEnd, rxConfirm]

/-- Whether a control word asks for nothing. -/
def Silent (word : UInt32) : Prop := ∀ pulse ∈ pulses, pulse.isSet word = false

theorem isSet_put_pulse {pulse other : Field} {word : UInt32} (silent : Silent word)
    (isPulse : pulse ∈ pulses) (otherIsPulse : other ∈ pulses) :
    other.isSet (pulse.put word 1) = decide (other = pulse) := by
  have fits : ∀ pulse ∈ pulses, pulse.Fits ∧ pulse.limit = 2 := by decide
  have apart : ∀ pulse ∈ pulses, ∀ other ∈ pulses, other ≠ pulse → pulse.Apart other := by decide
  by_cases same : other = pulse
  · subst same
    rw [Field.isSet_put_self _ _ (fits _ isPulse).1, (fits _ isPulse).2]
    simp
  · rw [Field.isSet_put_of_apart _ _ (fits _ isPulse).1 (apart _ isPulse _ otherIsPulse same),
      silent other otherIsPulse]
    simp [same]

end ControlWord

theorem Station.controlWord_eq {station : Station} (valid : station.Watermarked) :
    ∃ word, station.controlWord = .ok word ∧ ControlWord.Silent word ∧
      ∀ queue, (ControlWord.watermark queue).get word = (station.watermark queue).toNat := by
  have txBound : station.txWatermark.toNat < 4 := (valid .transmit).2
  have rxBound : station.rxWatermark.toNat < 4 := (valid .receive).2
  have txLevel : station.txWatermark.toNat % 256 = station.txWatermark.toNat := by omega
  have rxLevel : station.rxWatermark.toNat % 256 = station.rxWatermark.toNat := by omega
  let lower := ControlWord.txWatermark.put 0 station.txWatermark.toNat
  have shown : station.controlWord =
      .ok (ControlWord.rxWatermark.put lower station.rxWatermark.toNat) := by
    rw [controlWord, txLevel, rxLevel, Field.assign_of_lt _ txBound]
    exact Field.assign_of_lt _ rxBound
  have untouched : ∀ other : Field, ControlWord.txWatermark.Apart other →
      ControlWord.rxWatermark.Apart other →
      other.isSet (ControlWord.rxWatermark.put lower station.rxWatermark.toNat) = false := by
    intro other txApart rxApart
    rw [Field.isSet_put_of_apart _ _ (by decide) rxApart,
      Field.isSet_put_of_apart _ _ (by decide) txApart]
    simp [Field.isSet, Field.get]
  have apart : ∀ pulse ∈ ControlWord.pulses,
      ControlWord.txWatermark.Apart pulse ∧ ControlWord.rxWatermark.Apart pulse := by
    decide
  refine ⟨_, shown, fun pulse member => untouched _ (apart _ member).1 (apart _ member).2, ?_⟩
  intro queue
  cases queue with
  | transmit =>
    change ControlWord.txWatermark.get _ = station.txWatermark.toNat
    rw [Field.get_put_of_apart _ _ (by decide) (by decide),
      Field.get_put_self _ _ (by decide)]
    exact Nat.mod_eq_of_lt txBound
  | receive =>
    change ControlWord.rxWatermark.get _ = station.rxWatermark.toNat
    rw [Field.get_put_self _ _ (by decide)]
    exact Nat.mod_eq_of_lt rxBound

namespace Station

theorem watermark_withWatermark_self (station : Station) (queue : Queue) (level : UInt64) :
    (station.withWatermark queue level).watermark queue = level := by
  cases queue <;> rfl

theorem watermark_withWatermark_of_ne (station : Station) {queue other : Queue} (level : UInt64)
    (isOther : other ≠ queue) :
    (station.withWatermark queue level).watermark other = station.watermark other := by
  cases queue <;> cases other <;> first | rfl | exact absurd rfl isOther

theorem Watermarked.withWatermark {station : Station} (valid : station.Watermarked) (queue : Queue)
    {level : UInt64} (validLevel : WatermarkValid level) :
    (station.withWatermark queue level).Watermarked := by
  intro other
  by_cases same : other = queue
  · subst same
    rw [watermark_withWatermark_self]
    exact validLevel
  · rw [watermark_withWatermark_of_ne station level same]
    exact valid other

end Station

namespace ControlWord

theorem watermark_fits (queue : Queue) : (watermark queue).Fits := by
  cases queue <;> decide

theorem watermark_apart {queue other : Queue} (isOther : other ≠ queue) :
    (watermark queue).Apart (watermark other) := by
  revert isOther
  cases queue <;> cases other <;> decide

/-- A watermark that is written over its field is the only one that changes. -/
theorem get_put_watermark {station : Station} {word : UInt32} (queue : Queue) {level : UInt64}
    (valid : WatermarkValid level)
    (shown : ∀ other, (watermark other).get word = (station.watermark other).toNat)
    (other : Queue) :
    (watermark other).get ((watermark queue).put word level.toNat) =
      ((station.withWatermark queue level).watermark other).toNat := by
  by_cases same : other = queue
  · subst same
    have small : level.toNat < (watermark other).limit := by
      cases other <;> exact valid.2
    rw [Field.get_put_self _ _ (watermark_fits other), Station.watermark_withWatermark_self]
    exact Nat.mod_eq_of_lt small
  · rw [Field.get_put_of_apart _ _ (watermark_fits queue) (watermark_apart same), shown,
      Station.watermark_withWatermark_of_ne station level same]

theorem Silent.put_watermark {word : UInt32} (silent : Silent word) (queue : Queue)
    (value : Nat) : Silent ((watermark queue).put word value) := by
  have apart : ∀ pulse ∈ pulses, (watermark queue).Apart pulse := by
    cases queue <;> decide
  intro pulse member
  rw [Field.isSet_put_of_apart _ _ (watermark_fits queue) (apart pulse member)]
  exact silent pulse member

end ControlWord

end BlockLink
