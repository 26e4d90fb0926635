import BlockLink.Proofs.Reader

/-!
Laws of binary formats.

A format is exact if it reads what it writes and nothing else. Formats that are put
together from exact formats are exact, and those that are put together from orderly
ones are orderly.
-/

namespace BlockLink.Savestate

namespace Format

variable {α β : Type}

section Readers

variable (format : Format α)

theorem read_pair (second : Format β) :
    (format.pair second).read =
      Reader.andThen format.read fun value1 =>
        Reader.andThen second.read fun value2 => Reader.answer (value1, value2) :=
  rfl

theorem write_pair (second : Format β) (value : α × β) :
    (format.pair second).write value = format.write value.1 ++ second.write value.2 :=
  rfl

theorem read_view (wrap : α → β) (unwrap : β → α) :
    (format.view wrap unwrap).read =
      Reader.andThen format.read fun value => Reader.answer (wrap value) :=
  rfl

theorem write_view (wrap : α → β) (unwrap : β → α) (value : β) :
    (format.view wrap unwrap).write value = format.write (unwrap value) :=
  rfl

theorem readAll_succ (count : Nat) :
    format.readAll (count + 1) =
      Reader.andThen format.read fun value =>
        Reader.andThen (format.readAll count) fun values => Reader.answer (value :: values) :=
  rfl

end Readers

/-- Whether a format reads the bytes of a value as that value, whatever follows them, and
reads no other bytes. -/
def Exact (format : Format α) : Prop :=
  ∀ bytes value rest, format.read bytes = .ok (value, rest) ↔ bytes = format.write value ++ rest

namespace Exact

variable {format first : Format α} {second : Format β}

theorem pair (exactFirst : first.Exact) (exactSecond : second.Exact) :
    (first.pair second).Exact := by
  rintro bytes ⟨value1, value2⟩ rest
  rw [write_pair, List.append_assoc, read_pair]
  simp only [Reader.andThen_eq_ok_iff, exactFirst _, exactSecond _, Reader.answer,
    Except.ok.injEq, Prod.mk.injEq]
  constructor
  · rintro ⟨_, _, rfl, _, _, rfl, ⟨rfl, rfl⟩, rfl⟩
    rfl
  · rintro rfl
    exact ⟨_, _, rfl, _, _, rfl, ⟨rfl, rfl⟩, rfl⟩

theorem view (exact : format.Exact) {wrap : α → β} {unwrap : β → α}
    (unwrapped : ∀ value, unwrap (wrap value) = value)
    (wrapped : ∀ value, wrap (unwrap value) = value) : (format.view wrap unwrap).Exact := by
  intro bytes value rest
  simp only [read_view, Reader.andThen_eq_ok_iff, exact _, Reader.answer, Except.ok.injEq,
    Prod.mk.injEq]
  constructor
  · rintro ⟨inner, _, rfl, rfl, rfl⟩
    rw [write_view, unwrapped]
  · rintro rfl
    exact ⟨unwrap value, rest, rfl, wrapped value, rfl⟩

theorem read_write (exact : format.Exact) (value : α) :
    format.read (format.write value) = .ok (value, []) :=
  (exact _ _ _).mpr (List.append_nil _).symm

/-- No encoding begins with that of another value. -/
theorem eq_of_prefix (exact : format.Exact) {value other : α}
    (inside : format.write value <+: format.write other) : value = other := by
  obtain ⟨rest, written⟩ := inside
  have front := (exact (format.write other) value rest).mpr written.symm
  rw [exact.read_write] at front
  exact (Prod.mk.inj (Except.ok.inj front)).1.symm

end Exact

theorem byte_exact : byte.Exact := by
  intro bytes value rest
  cases bytes with
  | nil => simp [byte]
  | cons first rest => simp [byte]

theorem natural_read_iff (width : Nat) (bytes : List UInt8) (value : Nat) (rest : List UInt8) :
    (natural width).read bytes = .ok (value, rest) ↔
      value < 256 ^ width ∧ bytes = (natural width).write value ++ rest := by
  induction width generalizing bytes value rest with
  | zero =>
    simp only [natural, Except.ok.injEq, Prod.mk.injEq, List.nil_append, Nat.pow_zero,
      Nat.lt_one_iff]
    constructor
    · rintro ⟨rfl, rfl⟩
      exact ⟨rfl, rfl⟩
    · rintro ⟨rfl, rfl⟩
      exact ⟨rfl, rfl⟩
  | succ width inductionHypothesis =>
    have written : (natural (width + 1)).write value ++ rest =
        UInt8.ofNat value :: ((natural width).write (value / 256) ++ rest) :=
      rfl
    rw [written, natural, read_view, read_pair, Nat.pow_succ]
    simp only [Reader.andThen_eq_ok_iff, byte_exact _, inductionHypothesis, Reader.answer,
      Except.ok.injEq, Prod.mk.injEq]
    constructor
    · rintro ⟨_, _, ⟨low, _, rfl, high, _, ⟨small, rfl⟩, rfl, rfl⟩, rfl, rfl⟩
      dsimp only
      have bound := low.toNat_lt
      have quotient : (low.toNat + 256 * high) / 256 = high := by omega
      have remainder : UInt8.ofNat (low.toNat + 256 * high) = low := by
        apply UInt8.toNat_inj.mp
        rw [UInt8.toNat_ofNat']
        omega
      rw [quotient, remainder]
      exact ⟨by omega, rfl⟩
    · rintro ⟨small, rfl⟩
      have split : (UInt8.ofNat value).toNat + 256 * (value / 256) = value := by
        rw [UInt8.toNat_ofNat']
        omega
      exact ⟨_, _, ⟨_, _, rfl, value / 256, _, ⟨by omega, rfl⟩, rfl, rfl⟩, split, rfl⟩

/-- The lowest digits of a number in base 256, the lowest first. -/
def littleEndian (width number : Nat) : List UInt8 :=
  (List.range width).map fun place => UInt8.ofNat (number / 256 ^ place)

theorem natural_write (width number : Nat) :
    (natural width).write number = littleEndian width number := by
  induction width generalizing number with
  | zero => rfl
  | succ width inductionHypothesis =>
    have shifted (place : Nat) : number / 256 / 256 ^ place = number / 256 ^ (place + 1) := by
      rw [Nat.div_div_eq_div_mul, Nat.pow_succ, Nat.mul_comm]
    have written : (natural (width + 1)).write number =
        UInt8.ofNat number :: (natural width).write (number / 256) :=
      rfl
    rw [written, inductionHypothesis]
    simp [littleEndian, List.range_succ_eq_map, Function.comp_def, shifted]

theorem word32_write (word : UInt32) : word32.write word = littleEndian 4 word.toNat :=
  natural_write 4 word.toNat

theorem word64_write (word : UInt64) : word64.write word = littleEndian 8 word.toNat :=
  natural_write 8 word.toNat

theorem bool_write (value : Bool) : bool.write value = [UInt8.ofNat value.toNat] := by
  cases value <;> rfl

theorem number_exact {width : Nat} {wrap : Nat → α} {unwrap : α → Nat}
    (small : ∀ value, unwrap value < 256 ^ width) (wrapped : ∀ value, wrap (unwrap value) = value)
    (unwrapped : ∀ number < 256 ^ width, unwrap (wrap number) = number) :
    ((natural width).view wrap unwrap).Exact := by
  intro bytes value rest
  rw [read_view, write_view]
  simp only [Reader.andThen_eq_ok_iff, natural_read_iff, Reader.answer, Except.ok.injEq,
    Prod.mk.injEq]
  constructor
  · rintro ⟨number, _, ⟨inRange, rfl⟩, rfl, rfl⟩
    rw [unwrapped number inRange]
  · rintro rfl
    exact ⟨unwrap value, rest, ⟨small value, rfl⟩, wrapped value, rfl⟩

theorem word32_exact : word32.Exact :=
  number_exact UInt32.toNat_lt (fun _ => UInt32.ofNat_toNat)
    fun _ inRange => UInt32.toNat_ofNat_of_lt' inRange

theorem word64_exact : word64.Exact :=
  number_exact UInt64.toNat_lt (fun _ => UInt64.ofNat_toNat)
    fun _ inRange => UInt64.toNat_ofNat_of_lt' inRange

theorem bool_read_nil : bool.read [] = .error .unexpectedEnd := rfl

theorem bool_read_cons (first : UInt8) (rest : List UInt8) :
    bool.read (first :: rest) =
      if first = 0 then .ok (false, rest)
      else if first = 1 then .ok (true, rest)
      else .error (.invalidBool first) := by
  by_cases isZero : first = 0
  · subst isZero
    rfl
  · by_cases isOne : first = 1
    · subst isOne
      rfl
    · rw [if_neg isZero, if_neg isOne]
      simp [bool, refine, byte, bind, Except.bind]

theorem bool_exact : bool.Exact := by
  intro bytes value rest
  rw [bool_write]
  cases bytes with
  | nil => simp [bool_read_nil]
  | cons first behind =>
    rw [bool_read_cons]
    by_cases isZero : first = 0
    · cases value <;> simp [isZero]
    · by_cases isOne : first = 1
      · cases value <;> simp [isOne]
      · cases value <;> simp [isZero, isOne]

section Sequences

variable {format : Format α} {count most need : Nat}

theorem readAll_iff (exact : format.Exact) (bytes : List UInt8) (values : List α)
    (rest : List UInt8) :
    format.readAll count bytes = .ok (values, rest) ↔
      values.length = count ∧ bytes = format.writeAll values ++ rest := by
  induction count generalizing bytes values rest with
  | zero =>
    rw [readAll, Except.ok.injEq, Prod.mk.injEq, List.length_eq_zero_iff]
    constructor
    · rintro ⟨rfl, rfl⟩
      exact ⟨rfl, rfl⟩
    · rintro ⟨rfl, rfl⟩
      exact ⟨rfl, rfl⟩
  | succ count inductionHypothesis =>
    rw [readAll_succ]
    simp only [Reader.andThen_eq_ok_iff, exact _, inductionHypothesis, Reader.answer,
      Except.ok.injEq, Prod.mk.injEq]
    constructor
    · rintro ⟨value, _, rfl, values, _, ⟨rfl, rfl⟩, rfl, rfl⟩
      simp [writeAll]
    · rintro ⟨length, rfl⟩
      obtain ⟨value, values, rfl⟩ := List.exists_cons_of_length_eq_add_one length
      refine ⟨value, format.writeAll values ++ rest, ?_, values, rest, ⟨?_, rfl⟩, rfl, rfl⟩
      · simp [writeAll]
      · simpa using length

end Sequences

end Format

/-- Whether the reader of a format is orderly. -/
abbrev Format.Orderly {α : Type} (format : Format α) (most need : Nat) : Prop :=
  Reader.Orderly format.read most need

namespace Format.Orderly

variable {α β : Type} {format first : Format α} {second : Format β}
  {most need mostNext needNext : Nat}

theorem pair (orderly : first.Orderly most need) (later : second.Orderly mostNext needNext) :
    (first.pair second).Orderly (most + mostNext) (max need (most + needNext)) := by
  have both (value1 : α) : Reader.Orderly
      (Reader.andThen second.read fun value2 => Reader.answer (value1, value2))
      mostNext needNext :=
    Reader.Orderly.andThen later (fun _ => .answer _) (Nat.le_refl _) (.inl rfl)
  exact Reader.Orderly.andThen orderly both (Nat.le_max_left ..) (.inr (Nat.le_max_right ..))

theorem view (orderly : format.Orderly most need) (wrap : α → β) (unwrap : β → α) :
    (format.view wrap unwrap).Orderly most need :=
  Reader.Orderly.andThen orderly (fun _ => .answer _) (Nat.le_refl _) (.inl rfl)

theorem readAll (orderly : format.Orderly most need) (enough : need ≤ most) (count : Nat) :
    Reader.Orderly (format.readAll count) (count * most) (count * most) := by
  induction count with
  | zero =>
    rw [Nat.zero_mul]
    exact .answer []
  | succ count inductionHypothesis =>
    have tail (value : α) : Reader.Orderly
        (Reader.andThen (format.readAll count) fun values => Reader.answer (value :: values))
        (count * most) (count * most) :=
      inductionHypothesis.andThen (fun _ => .answer _) (Nat.le_refl _) (.inl rfl)
    rw [readAll_succ, Nat.succ_mul, Nat.add_comm]
    refine Reader.Orderly.andThen orderly tail ?_ (.inr (Nat.le_refl _))
    omega

end Format.Orderly

namespace Format

theorem byte_orderly : byte.Orderly 1 1 where
  taken {bytes value rest} shown := by
    have written := (byte_exact _ _ _).mp shown
    exact ⟨[value], written, Nat.le_refl 1, fun _ => rfl⟩
  settled {bytes malformed} shown final := by
    cases bytes with
    | nil => exact absurd (Except.error.inj shown).symm final
    | cons => cases shown
  short {bytes} shown := by
    cases bytes with
    | nil => exact Nat.one_pos
    | cons => cases shown
  completes {bytes} start := by
    cases bytes with
    | nil => exact ⟨1, .inl ⟨_, rfl⟩⟩
    | cons => simp [byte] at start

theorem natural_orderly (width : Nat) : (natural width).Orderly width width := by
  induction width with
  | zero => exact .answer 0
  | succ width inductionHypothesis =>
    refine ((byte_orderly.pair inductionHypothesis).view _ _).weaken ?_ ?_ <;> omega

theorem word32_orderly : word32.Orderly 4 4 := (natural_orderly 4).view _ _

theorem word64_orderly : word64.Orderly 8 8 := (natural_orderly 8).view _ _

theorem bool_read_eq_end_iff (bytes : List UInt8) :
    bool.read bytes = .error .unexpectedEnd ↔ bytes = [] := by
  cases bytes with
  | nil => simp [bool_read_nil]
  | cons first rest =>
    rw [bool_read_cons]
    by_cases isZero : first = 0
    · simp [isZero]
    · by_cases isOne : first = 1 <;> simp [isZero, isOne]

theorem bool_orderly : bool.Orderly 1 1 where
  taken {bytes value rest} shown := by
    have written := (bool_exact _ _ _).mp shown
    refine ⟨bool.write value, written, ?_, fun other => (bool_exact _ _ _).mpr rfl⟩
    cases value <;> exact Nat.le_refl 1
  settled {bytes malformed} shown final more := by
    cases bytes with
    | nil => exact absurd (Except.error.inj shown).symm final
    | cons first rest =>
      rw [List.cons_append, bool_read_cons]
      rw [bool_read_cons] at shown
      by_cases isZero : first = 0
      · simp [isZero] at shown
      · by_cases isOne : first = 1
        · simp [isOne] at shown
        · simpa [isZero, isOne] using shown
  short {bytes} shown := by
    rw [(bool_read_eq_end_iff bytes).mp shown]
    exact Nat.one_pos
  completes {bytes} start := by
    have isEmpty : bytes = [] := start.elim id (bool_read_eq_end_iff bytes).mp
    rw [isEmpty]
    exact ⟨1, .inl ⟨(false, []), rfl⟩⟩

end Format

/-- Bytes that were cut short are told from all that are wrong otherwise. -/
theorem Format.Exact.read_of_prefix {α : Type} {format : Format α} {most need : Nat}
    (exact : format.Exact) (orderly : format.Orderly most need) {bytes : List UInt8} {value : α}
    (inside : bytes <+: format.write value) (strict : bytes ≠ format.write value) :
    format.read bytes = .error .unexpectedEnd := by
  obtain ⟨more, written⟩ := inside
  have whole : format.read (bytes ++ more) = .ok (value, []) := by
    rw [written]
    exact exact.read_write value
  cases shown : format.read bytes with
  | ok answered =>
    obtain ⟨found, rest⟩ := answered
    rw [orderly.append shown more] at whole
    obtain ⟨-, nothing⟩ := Prod.mk.inj (Except.ok.inj whole)
    obtain ⟨-, rfl⟩ := List.append_eq_nil_iff.mp nothing
    exact absurd ((List.append_nil bytes).symm.trans written) strict
  | error malformed =>
    by_cases atEnd : malformed = .unexpectedEnd
    · rw [atEnd]
    · rw [orderly.settled shown atEnd] at whole
      cases whole

end BlockLink.Savestate
