import BlockLink.Event
import BlockLink.Register.Field

/-!
Waiting for a status flag by polling.

A poll counts as at least one cycle, so a wait ends within its budget even on a
clock that stands still or runs backwards.
-/

namespace BlockLink

/-- What a wait needs to know: the status and the time, each read from some state. -/
structure Watch (State : Type) where
  status : Step Event State (Except Fault Status)
  now : Step Event State Time

namespace Watch

variable {State : Type}

/-- What is waited for. -/
structure Aim where
  flag : StatusFlag
  expected : Bool
  /-- The budget in cycles. -/
  timeout : Time
deriving DecidableEq

def Aim.IsMet (aim : Aim) (status : Status) : Prop := status.flag aim.flag = aim.expected

instance (aim : Aim) (status : Status) : Decidable (aim.IsMet status) :=
  inferInstanceAs (Decidable (_ = _))

/-- The cycles that count against the budget after a number of polls. -/
def elapsed (start now : Time) (polls : Nat) : Time :=
  max (Time.since now start) (UInt64.ofNat polls)

/-- Poll until the aim is met or the budget is used up. This is poll number `polls`, and at
most `more` further ones follow. The events so far are carried along. -/
def poll (watch : Watch State) (aim : Aim) (start : Time) (more polls : Nat) (state : State)
    (events : List Event) : Outcome Event State (Except Fault (Except Refusal Unit)) :=
  let shown := watch.status.run state
  let events := events ++ shown.events
  match shown.value with
  | .error fault => ⟨.error fault, shown.state, events⟩
  | .ok status =>
    if aim.IsMet status then ⟨.ok (.ok ()), shown.state, events⟩
    else
      let clock := watch.now.run shown.state
      let events := events ++ clock.events
      let spent := elapsed start clock.value polls
      let expired : Outcome Event State (Except Fault (Except Refusal Unit)) :=
        ⟨.ok (.error .timeout), clock.state,
          events ++ [.waitTimedOut aim.flag aim.expected spent]⟩
      match more with
      | 0 => expired
      | more + 1 =>
        if aim.timeout ≤ spent then expired
        else poll watch aim start more (polls + 1) clock.state events

/-- Wait until a flag reads as expected. -/
def waitFor (watch : Watch State) (aim : Aim) :
    Step Event State (Except Fault (Except Refusal Unit)) := fun state =>
  let clock := watch.now.run state
  poll watch aim clock.value (aim.timeout.toNat - 1) 1 clock.state clock.events

end Watch

end BlockLink
