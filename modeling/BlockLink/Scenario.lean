/-!
Running a system of cooperating parties step by step until an inspector decides,
or until the budget of steps is used up.
-/

namespace BlockLink.Scenario

/-- What an inspector says of a system. -/
inductive Verdict where
  | running
  | success
  | failed
  | failedAt (place : String)
deriving DecidableEq

/-- How a run ends. -/
inductive Conclusion where
  | passed
  | failed
  | failedAt (place : String)
  | timedOut
deriving DecidableEq

/-- The conclusion that ends a run, if the verdict does. -/
def Verdict.conclusion? : Verdict → Option Conclusion
  | running => none
  | success => some .passed
  | failed => some .failed
  | failedAt place => some (.failedAt place)

/-- The complaint of a run that did not pass. -/
def Conclusion.complaint? : Conclusion → Option String
  | passed => none
  | failed => some "Test failed!"
  | failedAt place => some ("Test failed: " ++ place ++ "!")
  | timedOut => some "Test timed out!"

/-- Advance the system and then inspect it, at most `budget` times. -/
def run {State : Type} (advance : State → State) (inspect : State → Verdict × State) :
    (budget : Nat) → State → Conclusion × State
  | 0, state => (.timedOut, state)
  | budget + 1, state =>
    let (verdict, state) := inspect (advance state)
    match verdict.conclusion? with
    | some conclusion => (conclusion, state)
    | none => run advance inspect budget state

end BlockLink.Scenario
