import BlockLink.Proofs.Checked

/-!
How a wait ends.

A wait looks at the status and at the clock in turn. Nothing is assumed of either: any status
may be shown at any time, and the clock may stand still, jump or run backwards. Each poll counts
as a cycle at least, so the polls themselves use up the budget, and how many there are depends
on what was shown and on nothing else.
-/

namespace BlockLink.Watch

variable {State : Type} (watch : Watch State) (aim : Aim) (state : State)

/-- The first look at the clock and then a number of polls, each with another look at the clock
behind it. The answer is what the clock shows last. -/
def rounds : Nat → Step Event State Time
  | 0 => watch.now
  | polls + 1 => do
    let _ ← rounds polls
    let _ ← watch.status
    watch.now

/-- All that happens up to a poll. Polls are counted from one, and the answer is what this one
shows. -/
def look (number : Nat) : Step Event State (Except Fault Status) := do
  let _ ← watch.rounds (number - 1)
  watch.status

/-- The cycles that a number of polls have taken by the clock, none if it has gone back, or one
for each poll if that is more. -/
def spent (polls : Nat) : Nat :=
  max (((watch.rounds polls).run state).value.toNat - (watch.now.run state).value.toNat) polls

/-- Whether a poll shows what is waited for. -/
def Meets (number : Nat) : Prop :=
  ∃ status, ((watch.look number).run state).value = .ok status ∧ aim.IsMet status

/-- Whether a poll shows something else. -/
def Misses (number : Nat) : Prop :=
  ∃ status, ((watch.look number).run state).value = .ok status ∧ ¬ aim.IsMet status

/-- Whether a wait goes on after a poll. -/
def GoesOn (number : Nat) : Prop :=
  watch.Misses aim state number ∧ watch.spent state number < aim.timeout.toNat

/-- The outcomes of a wait that ends with a poll. -/
inductive Ends (polls : Nat) : Outcome Event State (Except Fault (Except Refusal Unit)) → Prop where
  | met :
      watch.Meets aim state polls →
      Ends polls
        ⟨.ok (.ok ()), ((watch.look polls).run state).state,
          ((watch.look polls).run state).events⟩
  | expired :
      watch.Misses aim state polls → aim.timeout.toNat ≤ watch.spent state polls →
      Ends polls
        ⟨.ok (.error .timeout), ((watch.rounds polls).run state).state,
          ((watch.rounds polls).run state).events ++
            [.waitTimedOut aim.flag aim.expected (UInt64.ofNat (watch.spent state polls))]⟩
  | failed {fault : Fault} :
      ((watch.look polls).run state).value = .error fault →
      Ends polls
        ⟨.error fault, ((watch.look polls).run state).state,
          ((watch.look polls).run state).events⟩

theorem run_look_succ (polls : Nat) :
    (watch.look (polls + 1)).run state =
      let before := (watch.rounds polls).run state
      let shown := watch.status.run before.state
      ⟨shown.value, shown.state, before.events ++ shown.events⟩ :=
  rfl

theorem run_rounds_succ (polls : Nat) :
    (watch.rounds (polls + 1)).run state =
      let shown := (watch.look (polls + 1)).run state
      let clock := watch.now.run shown.state
      ⟨clock.value, clock.state, shown.events ++ clock.events⟩ := by
  rw [run_look_succ, rounds, Step.run_bind, Step.run_bind]
  simp only [List.append_assoc]

/-- A poll in the course of a wait. -/
theorem poll_rounds (start : Time) (more polls : Nat) :
    poll watch aim start more (polls + 1) ((watch.rounds polls).run state).state
        ((watch.rounds polls).run state).events =
      let shown := (watch.look (polls + 1)).run state
      let clock := (watch.rounds (polls + 1)).run state
      let spent := elapsed start clock.value (polls + 1)
      match shown.value with
      | .error fault => ⟨.error fault, shown.state, shown.events⟩
      | .ok status =>
        if aim.IsMet status then ⟨.ok (.ok ()), shown.state, shown.events⟩
        else if more = 0 ∨ aim.timeout ≤ spent then
          ⟨.ok (.error .timeout), clock.state,
            clock.events ++ [.waitTimedOut aim.flag aim.expected spent]⟩
        else poll watch aim start (more - 1) (polls + 2) clock.state clock.events := by
  simp only [run_rounds_succ, run_look_succ]
  cases more with
  | zero =>
    rw [poll]
    cases (watch.status.run ((watch.rounds polls).run state).state).value with
    | error fault => rfl
    | ok status => simp only [true_or, if_true]
  | succ more =>
    rw [poll]
    cases (watch.status.run ((watch.rounds polls).run state).state).value with
    | error fault => rfl
    | ok status => simp only [Nat.succ_ne_zero, false_or, Nat.add_sub_cancel]

theorem toNat_elapsed (start now : Time) {polls : Nat} (small : polls < 2 ^ 64) :
    (elapsed start now polls).toNat = max (now.toNat - start.toNat) polls := by
  have counted : (UInt64.ofNat polls).toNat = polls := UInt64.toNat_ofNat_of_lt' small
  have passed := Time.toNat_since now start
  have larger : elapsed start now polls =
      if Time.since now start ≤ UInt64.ofNat polls then UInt64.ofNat polls
      else Time.since now start :=
    rfl
  rw [larger]
  split
  next notMore =>
    rw [UInt64.le_iff_toNat_le, passed, counted] at notMore
    rw [counted, Nat.max_eq_right notMore]
  next more =>
    rw [UInt64.le_iff_toNat_le, passed, counted] at more
    rw [passed, Nat.max_eq_left (by omega)]

variable {watch aim state}

theorem Meets.not_misses {number : Nat} (meets : watch.Meets aim state number) :
    ¬ watch.Misses aim state number := by
  rintro ⟨other, otherShown, missed⟩
  obtain ⟨status, shown, met⟩ := meets
  rw [shown] at otherShown
  cases otherShown
  exact missed met

theorem Meets.not_failed {number : Nat} (meets : watch.Meets aim state number) (fault : Fault) :
    ((watch.look number).run state).value ≠ .error fault := by
  obtain ⟨status, shown, -⟩ := meets
  rw [shown]
  nofun

theorem Misses.not_failed {number : Nat} (misses : watch.Misses aim state number) (fault : Fault) :
    ((watch.look number).run state).value ≠ .error fault := by
  obtain ⟨status, shown, -⟩ := misses
  rw [shown]
  nofun

namespace Ends

variable {number : Nat} {outcome : Outcome Event State (Except Fault (Except Refusal Unit))}
  (ends : watch.Ends aim state number outcome)
include ends

theorem ok_iff : outcome.value = .ok (.ok ()) ↔ watch.Meets aim state number := by
  cases ends with
  | met meets => exact ⟨fun _ => meets, fun _ => rfl⟩
  | expired misses => exact ⟨nofun, fun meets => absurd misses meets.not_misses⟩
  | failed failed => exact ⟨nofun, fun meets => absurd failed (meets.not_failed _)⟩

theorem timeout_iff :
    outcome.value = .ok (.error .timeout) ↔
      watch.Misses aim state number ∧ aim.timeout.toNat ≤ watch.spent state number := by
  cases ends with
  | met meets => exact ⟨nofun, fun expired => absurd expired.1 meets.not_misses⟩
  | expired misses used => exact ⟨fun _ => ⟨misses, used⟩, fun _ => rfl⟩
  | failed failed => exact ⟨nofun, fun expired => absurd failed (expired.1.not_failed _)⟩

theorem fault_iff (fault : Fault) :
    outcome.value = .error fault ↔ ((watch.look number).run state).value = .error fault := by
  cases ends with
  | met meets => exact ⟨nofun, fun failed => absurd failed (meets.not_failed fault)⟩
  | expired misses => exact ⟨nofun, fun failed => absurd failed (misses.not_failed fault)⟩
  | failed failed => simp only [failed, Except.error.injEq]

theorem eq_of_meets (meets : watch.Meets aim state number) :
    outcome =
      ⟨.ok (.ok ()), ((watch.look number).run state).state,
        ((watch.look number).run state).events⟩ := by
  cases ends with
  | met => rfl
  | expired misses => exact absurd misses meets.not_misses
  | failed failed => exact absurd failed (meets.not_failed _)

theorem not_goesOn : ¬ watch.GoesOn aim state number := by
  rintro ⟨misses, unused⟩
  cases ends with
  | met meets => exact meets.not_misses misses
  | expired _ used => exact absurd unused (Nat.not_lt.mpr used)
  | failed failed => exact misses.not_failed _ failed

end Ends

variable (watch aim state)

/-- What a poll decides: the wait ends with it, or goes on behind it. The last poll that is
allowed uses up the budget, so the wait ends with it at the latest. -/
theorem ends_or_goesOn {more polls : Nat} (small : polls + 1 + more < 2 ^ 64)
    (budget : aim.timeout.toNat ≤ polls + 1 + more) :
    let before := (watch.rounds polls).run state
    let start := (watch.now.run state).value
    let outcome := poll watch aim start more (polls + 1) before.state before.events
    watch.Ends aim state (polls + 1) outcome ∨
      more ≠ 0 ∧ watch.GoesOn aim state (polls + 1) ∧
        outcome =
          poll watch aim start (more - 1) (polls + 2)
            ((watch.rounds (polls + 1)).run state).state
            ((watch.rounds (polls + 1)).run state).events := by
  intro before start outcome
  let clock := ((watch.rounds (polls + 1)).run state).value
  have counted : (elapsed start clock (polls + 1)).toNat = watch.spent state (polls + 1) :=
    toNat_elapsed start clock (by omega)
  have least : polls + 1 ≤ watch.spent state (polls + 1) := Nat.le_max_right ..
  have polled : outcome = _ := poll_rounds watch aim state start more polls
  rw [polled]
  dsimp only
  cases shown : ((watch.look (polls + 1)).run state).value with
  | error fault => exact .inl (.failed shown)
  | ok status =>
    dsimp only
    by_cases met : aim.IsMet status
    · rw [if_pos met]
      exact .inl (.met ⟨status, shown, met⟩)
    · have misses : watch.Misses aim state (polls + 1) := ⟨status, shown, met⟩
      rw [if_neg met]
      by_cases exhausted : aim.timeout ≤ elapsed start clock (polls + 1)
      · have used : aim.timeout.toNat ≤ watch.spent state (polls + 1) := by
          rw [← counted]
          exact UInt64.le_iff_toNat_le.mp exhausted
        have expired := Ends.expired misses used
        rw [← counted, UInt64.ofNat_toNat] at expired
        rw [if_pos (.inr exhausted)]
        exact .inl expired
      · have unused : watch.spent state (polls + 1) < aim.timeout.toNat := by
          rw [UInt64.le_iff_toNat_le, counted] at exhausted
          exact Nat.not_le.mp exhausted
        have left : more ≠ 0 := by omega
        rw [if_neg (not_or.mpr ⟨left, exhausted⟩)]
        exact .inr ⟨left, ⟨misses, unused⟩, rfl⟩

/-- The wait ends with one of the polls that are allowed. -/
theorem ends_poll {more polls : Nat} (budget : polls + 1 + more = max aim.timeout.toNat 1)
    (before : ∀ earlier, 1 ≤ earlier → earlier < polls + 1 → watch.GoesOn aim state earlier) :
    ∃ number, 1 ≤ number ∧ number ≤ max aim.timeout.toNat 1 ∧
      (∀ earlier, 1 ≤ earlier → earlier < number → watch.GoesOn aim state earlier) ∧
      watch.Ends aim state number
        (poll watch aim (watch.now.run state).value more (polls + 1)
          ((watch.rounds polls).run state).state ((watch.rounds polls).run state).events) := by
  have bound := aim.timeout.toNat_lt
  have decided := ends_or_goesOn watch aim state
    (by omega : polls + 1 + more < 2 ^ 64) (by omega : aim.timeout.toNat ≤ polls + 1 + more)
  induction more generalizing polls with
  | zero =>
    have ends := decided.resolve_right fun goesOn => goesOn.1 rfl
    exact ⟨polls + 1, by omega, by omega, before, ends⟩
  | succ more inductionHypothesis =>
    rcases decided with ends | ⟨-, goesOn, next⟩
    · exact ⟨polls + 1, by omega, by omega, before, ends⟩
    · rw [next]
      have budgetNext : polls + 1 + 1 + more = max aim.timeout.toNat 1 := by omega
      apply inductionHypothesis budgetNext
      · intro earlier positive notLater
        rcases Nat.lt_succ_iff_lt_or_eq.mp notLater with isEarlier | rfl
        · exact before earlier positive isEarlier
        · exact goesOn
      · exact ends_or_goesOn watch aim state (by omega) (by omega)

/-- Every wait ends with a poll, and no poll before it could have ended it. -/
theorem ends_waitFor :
    ∃ number, 1 ≤ number ∧ number ≤ max aim.timeout.toNat 1 ∧
      (∀ earlier, 1 ≤ earlier → earlier < number → watch.GoesOn aim state earlier) ∧
      watch.Ends aim state number ((watch.waitFor aim).run state) := by
  have budget : 0 + 1 + (aim.timeout.toNat - 1) = max aim.timeout.toNat 1 := by omega
  exact ends_poll watch aim state budget fun earlier positive none => absurd positive (by omega)

variable {watch aim state}

/-- Only one poll can be the last: none before it could have ended the wait, and it does not go
on behind this one. -/
theorem ends_at {number : Nat} (positive : 1 ≤ number)
    (before : ∀ earlier, 1 ≤ earlier → earlier < number → watch.GoesOn aim state earlier)
    (stops : ¬ watch.GoesOn aim state number) :
    watch.Ends aim state number ((watch.waitFor aim).run state) := by
  obtain ⟨last, lastPositive, -, beforeLast, ends⟩ := ends_waitFor watch aim state
  rcases Nat.lt_trichotomy last number with earlier | rfl | later
  · exact absurd (before last lastPositive earlier) ends.not_goesOn
  · exact ends
  · exact absurd (beforeLast number positive later) stops

/-- More time makes no difference to a wait that has come to its aim. -/
theorem waitFor_longer {timeout : Time} (notShorter : aim.timeout ≤ timeout)
    (succeeded : ((watch.waitFor aim).run state).value = .ok (.ok ())) :
    (watch.waitFor { aim with timeout }).run state = (watch.waitFor aim).run state := by
  obtain ⟨number, positive, -, before, ends⟩ := ends_waitFor watch aim state
  have meets := ends.ok_iff.mp succeeded
  have otherEnds : watch.Ends { aim with timeout } state number
      ((watch.waitFor { aim with timeout }).run state) := by
    apply ends_at positive
    · intro earlier earlierPositive isEarlier
      obtain ⟨misses, unused⟩ := before earlier earlierPositive isEarlier
      exact ⟨misses, Nat.lt_of_lt_of_le unused (UInt64.le_iff_toNat_le.mp notShorter)⟩
    · exact fun goesOn => meets.not_misses goesOn.1
  rw [ends.eq_of_meets meets, otherEnds.eq_of_meets meets]

/-- A wait ends within its budget, whatever the status and the clock show, and no counter
overflows on the way. It ends with the first poll that shows what is waited for, or that has
used up the budget without it, and tells which of the two it was. A status that fails ends it as
well. Once a wait succeeds, any longer one takes the same polls. -/
theorem waits_within_budget (watch : Watch State) (aim : Aim) (state : State) :
    let outcome := (watch.waitFor aim).run state
    watch.waitForChecked aim state = .ok outcome ∧
    (∃ number, 1 ≤ number ∧ number ≤ max 1 aim.timeout.toNat ∧
      (∀ earlier, 1 ≤ earlier → earlier < number →
        watch.Misses aim state earlier ∧ watch.spent state earlier < aim.timeout.toNat) ∧
      (outcome.value = .ok (.ok ()) ↔ watch.Meets aim state number) ∧
      (outcome.value = .ok (.error .timeout) ↔
        watch.Misses aim state number ∧ aim.timeout.toNat ≤ watch.spent state number) ∧
      (∀ fault, outcome.value = .error fault ↔
        ((watch.look number).run state).value = .error fault) ∧
      watch.Ends aim state number outcome) ∧
    ∀ timeout, aim.timeout ≤ timeout → outcome.value = .ok (.ok ()) →
      (watch.waitFor { aim with timeout }).run state = outcome := by
  intro outcome
  obtain ⟨number, positive, within, before, ends⟩ := ends_waitFor watch aim state
  refine ⟨watch.waitForChecked_eq aim state, ?_, fun timeout => waitFor_longer⟩
  rw [Nat.max_comm] at within
  exact ⟨number, positive, within, before, ends.ok_iff, ends.timeout_iff, ends.fault_iff, ends⟩

end BlockLink.Watch
