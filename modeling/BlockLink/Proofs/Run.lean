import BlockLink.Proofs.Agreement
import BlockLink.Proofs.Driver

/-!
Runs of operations on a new link, by both sides and in any order.
-/

namespace BlockLink

/-- A run of operations on a new link. No savestate is loaded on the way, so that the log
tells the history of this one link. -/
structure Run where
  config : Config
  start : Link
  created : Link.create config = .ok start
  operations : List Operation
  fresh : ∀ operation ∈ operations, ¬ operation.Restores

/-- A run of any operations on a new link. Whatever bytes a savestate is loaded from, they
count as one. -/
structure OpenRun where
  config : Config
  start : Link
  created : Link.create config = .ok start
  operations : List Operation

def OpenRun.link (run : OpenRun) : Link := ((Link.performAll run.operations).run run.start).state

/-- Whether a log that begins with a new link leads to this one. -/
structure Link.Follows (link : Link) (log : List Event) : Prop where
  accepted : link.config.Accepted
  trace (sender : Side) : Lane.Trace sender .idle log (link.lane sender)

namespace Link.Follows

variable {link : Link} {log : List Event}

theorem start {config : Config} (created : Link.create config = .ok link) : link.Follows [] := by
  obtain ⟨accepted, rfl⟩ := Link.create_eq_ok_iff.mp created
  refine ⟨accepted, fun sender => ?_⟩
  rw [lane_idle]
  exact .rest

theorem step {α : Type} {step : Step Event Link α} (follows : link.Follows log)
    (within : step.Within Traces) :
    (step.run link).state.Follows (log ++ (step.run link).events) := by
  obtain ⟨accepted, traced⟩ := within link follows.accepted
  exact ⟨accepted, fun sender => (follows.trace sender).append (traced sender)⟩

theorem agrees (follows : link.Follows log) (sender : Side) :
    ∃ passed, (Ledger.ofLog sender log).Agrees (link.lane sender) passed :=
  (follows.trace sender).agrees

theorem charge (follows : link.Follows log) :
    (Link.charge.run link).state.Follows (log ++ (Link.charge.run link).events) :=
  follows.step trace_law.charge

/-- The receive FIFO holds at most one message end, the newest block. -/
theorem framed (follows : link.Follows log) (side : Side) : (link.station side).Framed := by
  obtain ⟨passed, agrees⟩ := follows.agrees side.peer
  have arrived : (link.lane side.peer).arrived = (link.station side).rx.entries := by
    simp [lane, Lane.between]
  have isPending : (link.lane side.peer).isPending = (link.station side).boundaryPending := by
    simp [lane, Lane.between]
  constructor
  · rw [← arrived]
    exact agrees.single
  · intro pending entry newest
    obtain ⟨front, block, ended⟩ := agrees.held (.inl (isPending.trans pending))
    obtain ⟨older, shape⟩ := List.getLast?_eq_some_iff.mp newest
    rw [arrived, shape, Frame.ofEntries_append, ← List.append_assoc] at ended
    have last := (List.append_inj' ended rfl).2
    simpa [Frame.ofEntries] using (Prod.mk.inj (List.cons.inj last).1).2

end Link.Follows

namespace Run

variable (run : Run) (sender : Side)

def outcome : Outcome Event Link (List Answer) :=
  (Link.performAll run.operations).run run.start

def link : Link := run.outcome.state

def log : List Event := run.outcome.events

/-- What the log tells about one direction. -/
def ledger : Ledger := .ofLog sender run.log

theorem follows : run.link.Follows run.log :=
  (Link.Follows.start run.created).step (Link.trace_law.performAll run.operations run.fresh)

theorem trace : Lane.Trace sender .idle run.log (run.link.lane sender) :=
  run.follows.trace sender

theorem watermarked : run.link.Watermarked :=
  Link.watermarks_law.performAll run.operations run.fresh run.start (.created run.created)

theorem agrees : ∃ passed, (run.ledger sender).Agrees (run.link.lane sender) passed :=
  run.follows.agrees sender

end Run

end BlockLink
