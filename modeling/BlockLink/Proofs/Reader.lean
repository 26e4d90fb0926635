import BlockLink.Savestate

/-!
Readers of binary formats.

A reader is orderly if it takes a bounded number of bytes from the front, decides
by these alone, and has nothing against bytes that were cut short: with enough
zeros behind them it comes to an end, though perhaps to that of a FIFO that is too
long. One orderly reader after another is orderly again.
-/

namespace BlockLink.Savestate

/-- The reading half of a format. -/
abbrev Reader (α : Type) : Type := List UInt8 → Except Malformed (α × List UInt8)

namespace Reader

variable {α β : Type}

def answer (value : α) : Reader α := fun bytes => .ok (value, bytes)

def reject (malformed : Malformed) : Reader α := fun _ => .error malformed

/-- One reader after another, the second depending on what the first has read. -/
def andThen (first : Reader α) (next : α → Reader β) : Reader β := fun bytes => do
  let (value, rest) ← first bytes
  next value rest

section Equations

variable {first : Reader α} {next : α → Reader β} {bytes : List UInt8}

theorem andThen_of_ok {value : α} {rest : List UInt8} (shown : first bytes = .ok (value, rest)) :
    first.andThen next bytes = next value rest := by
  rw [andThen, shown]
  rfl

theorem andThen_of_error {malformed : Malformed} (shown : first bytes = .error malformed) :
    first.andThen next bytes = .error malformed := by
  rw [andThen, shown]
  rfl

theorem andThen_eq_ok_iff {value : β} {rest : List UInt8} :
    first.andThen next bytes = .ok (value, rest) ↔
      ∃ read middle, first bytes = .ok (read, middle) ∧ next read middle = .ok (value, rest) := by
  cases shown : first bytes with
  | ok answered =>
    obtain ⟨read, middle⟩ := answered
    rw [andThen_of_ok shown]
    simp only [Except.ok.injEq, Prod.mk.injEq]
    constructor
    · intro answered
      exact ⟨read, middle, ⟨rfl, rfl⟩, answered⟩
    · rintro ⟨_, _, ⟨rfl, rfl⟩, answered⟩
      exact answered
  | error malformed =>
    rw [andThen_of_error shown]
    simp

theorem andThen_eq_error_iff {malformed : Malformed} :
    first.andThen next bytes = .error malformed ↔
      first bytes = .error malformed ∨
        ∃ read middle, first bytes = .ok (read, middle) ∧
          next read middle = .error malformed := by
  cases shown : first bytes with
  | ok answered =>
    obtain ⟨read, middle⟩ := answered
    rw [andThen_of_ok shown]
    simp only [Except.ok.injEq, Prod.mk.injEq, reduceCtorEq, false_or]
    constructor
    · intro rejected
      exact ⟨read, middle, ⟨rfl, rfl⟩, rejected⟩
    · rintro ⟨_, _, ⟨rfl, rfl⟩, rejected⟩
      exact rejected
  | error other =>
    rw [andThen_of_error shown]
    simp

end Equations

/-- Whether reading came to an end that more bytes do not put off. -/
def Ends (outcome : Except Malformed (α × List UInt8)) : Prop :=
  (∃ answered, outcome = .ok answered) ∨ outcome = .error .overlongFifo

/-- Whether bytes lead to an end if zeros follow them. -/
def Completes (reader : Reader α) (bytes : List UInt8) : Prop :=
  ∃ count, Ends (reader (bytes ++ List.replicate count 0))

/-- A reader takes at most `most` bytes, and asks for more only if it has fewer than `need`. -/
structure Orderly (reader : Reader α) (most need : Nat) : Prop where
  taken {bytes : List UInt8} {value : α} {rest : List UInt8} :
    reader bytes = .ok (value, rest) →
      ∃ front, bytes = front ++ rest ∧ front.length ≤ most ∧
        ∀ other, reader (front ++ other) = .ok (value, other)
  settled {bytes : List UInt8} {malformed : Malformed} :
    reader bytes = .error malformed → malformed ≠ .unexpectedEnd →
      ∀ more, reader (bytes ++ more) = .error malformed
  short {bytes : List UInt8} : reader bytes = .error .unexpectedEnd → bytes.length < need
  completes {bytes : List UInt8} :
    bytes = [] ∨ reader bytes = .error .unexpectedEnd → reader.Completes bytes

namespace Orderly

variable {first reader : Reader α} {next : α → Reader β} {most need mostNext needNext : Nat}

theorem append (orderly : reader.Orderly most need) {bytes : List UInt8} {value : α}
    {rest : List UInt8} (shown : reader bytes = .ok (value, rest)) (more : List UInt8) :
    reader (bytes ++ more) = .ok (value, rest ++ more) := by
  obtain ⟨front, rfl, -, anywhere⟩ := orderly.taken shown
  rw [List.append_assoc]
  exact anywhere _

theorem length_le (orderly : reader.Orderly most need) {bytes : List UInt8} {value : α}
    (shown : reader bytes = .ok (value, [])) : bytes.length ≤ most := by
  obtain ⟨front, rfl, small, -⟩ := orderly.taken shown
  rwa [List.append_nil]

theorem ends_append (orderly : reader.Orderly most need) {bytes : List UInt8}
    (ends : Ends (reader bytes)) (more : List UInt8) : Ends (reader (bytes ++ more)) := by
  rcases ends with ⟨⟨value, rest⟩, shown⟩ | overlong
  · exact .inl ⟨_, orderly.append shown more⟩
  · exact .inr (orderly.settled overlong (by decide) more)

theorem weaken (orderly : reader.Orderly most need) {more longer : Nat} (mostLe : most ≤ more)
    (needLe : need ≤ longer) : reader.Orderly more longer where
  taken shown := by
    obtain ⟨front, split, small, anywhere⟩ := orderly.taken shown
    exact ⟨front, split, Nat.le_trans small mostLe, anywhere⟩
  settled := orderly.settled
  short shown := Nat.lt_of_lt_of_le (orderly.short shown) needLe
  completes := orderly.completes

theorem sharpen (orderly : reader.Orderly most need) {less : Nat}
    (bound : ∀ bytes value, reader bytes = .ok (value, []) → bytes.length ≤ less) :
    reader.Orderly less need where
  taken shown := by
    obtain ⟨front, split, -, anywhere⟩ := orderly.taken shown
    have alone := anywhere []
    rw [List.append_nil] at alone
    exact ⟨front, split, bound front _ alone, anywhere⟩
  settled := orderly.settled
  short := orderly.short
  completes := orderly.completes

theorem answer (value : α) : (Reader.answer value).Orderly 0 0 where
  taken {bytes _ rest} shown := by
    obtain ⟨rfl, rfl⟩ := Prod.mk.inj (Except.ok.inj shown)
    exact ⟨[], rfl, Nat.le_refl 0, fun _ => rfl⟩
  settled shown := nomatch shown
  short shown := nomatch shown
  completes _ := ⟨0, .inl ⟨_, rfl⟩⟩

theorem overlong : (reject .overlongFifo : Reader α).Orderly 0 0 where
  taken shown := nomatch shown
  settled shown _ _ := shown
  short shown := nomatch shown
  completes _ := ⟨0, .inr rfl⟩

/-- The bytes that were cut short end in the middle of what the first reader takes, so all it
leaves of the zeros is zeros, with which the next reader can start. -/
theorem completes_andThen (orderly : first.Orderly most need)
    (later : ∀ value, (next value).Orderly mostNext needNext) {bytes : List UInt8}
    {malformed : Malformed} (shown : first bytes = .error malformed)
    (completes : first.Completes bytes) : (first.andThen next).Completes bytes := by
  obtain ⟨count, ⟨⟨value, rest⟩, read⟩ | overlong⟩ := completes
  · obtain ⟨front, split, -, anywhere⟩ := orderly.taken read
    rcases List.append_eq_append_iff.mp split with ⟨extra, -, zeros⟩ | ⟨extra, inside, -⟩
    · obtain ⟨-, -, allZero⟩ := List.append_eq_replicate_iff.mp zeros.symm
      obtain ⟨more, ends⟩ := (later value).completes (.inl rfl)
      refine ⟨count + more, ?_⟩
      have swapped : rest ++ List.replicate more 0 = List.replicate more 0 ++ rest := by
        rw [allZero, List.replicate_append_replicate, List.replicate_append_replicate,
          Nat.add_comm]
      rw [← List.replicate_append_replicate, ← List.append_assoc,
        andThen_of_ok (orderly.append read _), swapped]
      exact (later value).ends_append ends rest
    · rw [inside, anywhere] at shown
      cases shown
  · exact ⟨count, .inr (andThen_of_error overlong)⟩

theorem andThen (orderly : first.Orderly most need)
    (later : ∀ value, (next value).Orderly mostNext needNext) {longer : Nat}
    (needLe : need ≤ longer) (needNextLe : needNext = 0 ∨ most + needNext ≤ longer) :
    (first.andThen next).Orderly (most + mostNext) longer where
  taken shown := by
    obtain ⟨read, middle, shownFirst, shownNext⟩ := andThen_eq_ok_iff.mp shown
    obtain ⟨front, rfl, small, anywhere⟩ := orderly.taken shownFirst
    obtain ⟨frontNext, rfl, smallNext, anywhereNext⟩ := (later read).taken shownNext
    refine ⟨front ++ frontNext, (List.append_assoc ..).symm, ?_, fun other => ?_⟩
    · rw [List.length_append]
      omega
    · rw [List.append_assoc, andThen_of_ok (anywhere _)]
      exact anywhereNext other
  settled shown final more := by
    rcases andThen_eq_error_iff.mp shown with shownFirst | ⟨read, middle, shownFirst, shownNext⟩
    · exact andThen_of_error (orderly.settled shownFirst final more)
    · rw [andThen_of_ok (orderly.append shownFirst more)]
      exact (later read).settled shownNext final more
  short shown := by
    rcases andThen_eq_error_iff.mp shown with shownFirst | ⟨read, middle, shownFirst, shownNext⟩
    · have few := orderly.short shownFirst
      omega
    · obtain ⟨front, rfl, small, -⟩ := orderly.taken shownFirst
      have few := (later read).short shownNext
      rw [List.length_append]
      omega
  completes {bytes} start := by
    cases shown : first bytes with
    | ok answered =>
      obtain ⟨read, middle⟩ := answered
      have startNext : middle = [] ∨ next read middle = .error .unexpectedEnd := by
        refine start.imp ?_ ?_
        · rintro rfl
          obtain ⟨front, split, -⟩ := orderly.taken shown
          exact (List.append_eq_nil_iff.mp split.symm).2
        · rw [andThen_of_ok shown]
          exact id
      obtain ⟨count, ends⟩ := (later read).completes startNext
      refine ⟨count, ?_⟩
      rw [andThen_of_ok (orderly.append shown _)]
      exact ends
    | error malformed =>
      rw [andThen_of_error shown] at start
      have startFirst := start.imp_right fun rejected =>
        shown.trans (congrArg _ (Except.error.inj rejected))
      exact orderly.completes_andThen later shown (orderly.completes startFirst)

end Orderly

end Reader

end BlockLink.Savestate
