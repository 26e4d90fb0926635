/-!
Steps on a state that report events. An operation is a function from a state to
its outcome: a value, the state afterwards and the events in the order in which
they happened.
-/

namespace BlockLink

/-- What one operation leaves behind. -/
structure Outcome (Event State Value : Type) where
  value : Value
  state : State
  events : List Event

/-- An operation on a state. -/
def Step (Event State Value : Type) : Type := State → Outcome Event State Value

namespace Step

variable {Event State α β : Type}

/-- Apply a step to a state. -/
def run (step : Step Event State α) (state : State) : Outcome Event State α := step state

/-- Leave the state as it is and answer `value`. -/
def done (value : α) : Step Event State α := fun state => ⟨value, state, []⟩

/-- One step after another, the second depending on the answer of the first. -/
def andThen (first : Step Event State α) (second : α → Step Event State β) :
    Step Event State β := fun state =>
  let before := first state
  let after := second before.value before.state
  ⟨after.value, after.state, before.events ++ after.events⟩

instance : Monad (Step Event State) where
  pure := done
  bind := andThen

/-- A value read off the state. -/
def observe (view : State → α) : Step Event State α := fun state => ⟨view state, state, []⟩

/-- Change the state without an event. -/
def update (change : State → State) : Step Event State Unit := fun state =>
  ⟨(), change state, []⟩

/-- Report an event. -/
def report (event : Event) : Step Event State Unit := fun state => ⟨(), state, [event]⟩

/-- Do nothing. -/
def skip : Step Event State Unit := done ()

section Equations

variable (state : State)

@[simp]
theorem run_pure (value : α) :
    (pure value : Step Event State α).run state = ⟨value, state, []⟩ :=
  rfl

@[simp]
theorem run_bind (first : Step Event State α) (second : α → Step Event State β) :
    (first >>= second).run state =
      ⟨((second (first.run state).value).run (first.run state).state).value,
        ((second (first.run state).value).run (first.run state).state).state,
        (first.run state).events ++
          ((second (first.run state).value).run (first.run state).state).events⟩ :=
  rfl

@[simp]
theorem run_map (change : α → β) (step : Step Event State α) :
    (change <$> step).run state =
      ⟨change (step.run state).value, (step.run state).state, (step.run state).events ++ []⟩ :=
  rfl

@[simp]
theorem run_observe (view : State → α) :
    (observe view : Step Event State α).run state = ⟨view state, state, []⟩ :=
  rfl

@[simp]
theorem run_update (change : State → State) :
    (update change : Step Event State Unit).run state = ⟨(), change state, []⟩ :=
  rfl

@[simp]
theorem run_report (event : Event) :
    (report event : Step Event State Unit).run state = ⟨(), state, [event]⟩ :=
  rfl

@[simp]
theorem run_skip : (skip : Step Event State Unit).run state = ⟨(), state, []⟩ :=
  rfl

end Equations

end Step

end BlockLink
