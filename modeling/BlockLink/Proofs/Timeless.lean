import BlockLink.Proofs.Punctuality
import BlockLink.Proofs.Refinement

/-!
Links without latency.

On such a link every block that waits is due, and it waits because the receiver
holds it back. So the clock decides nothing: the passing of time changes the clock
and nothing else, and what a call does commutes with forgetting all times. Runs that
make the same calls go through the same timeless links, however much time passes
between the calls and whether they go to the model or through the registers.
-/

namespace BlockLink

def Entry.timeless (entry : Entry) : Entry := { entry with readyAt := 0 }

def Fifo.timeless (fifo : Fifo) : Fifo where
  entries := fifo.entries.map Entry.timeless
  size_le := by
    rw [List.length_map]
    exact fifo.size_le

theorem Fifo.size_timeless (fifo : Fifo) : fifo.timeless.size = fifo.size :=
  List.length_map _

/-- The instance up to the times at which its entries may cross. -/
def Station.timeless (station : Station) : Station :=
  { station with tx := station.tx.timeless, rx := station.rx.timeless }

/-- The link at the beginning of all time, with nothing staged and accesses that take no time. -/
def Link.timeless (link : Link) : Link where
  stations := ⟨(link.station .left).timeless, (link.station .right).timeless⟩
  staged := .both .zero
  time := 0
  config := { link.config with accessCycles := 0, compressSavestates := false }

namespace Lane

def timeless (lane : Lane) : Lane :=
  { lane with
    waiting := lane.waiting.map Entry.timeless
    arrived := lane.arrived.map Entry.timeless }

/-- Whether everything that waits is due. -/
def Due (now : Time) (lane : Lane) : Prop := ∀ entry ∈ lane.waiting, entry.readyAt ≤ now

section Timeless

variable {lane : Lane} {now : Time}

theorem map_timeless_markLast (entries : List Entry) :
    (Fifo.markLast entries).map Entry.timeless = Fifo.markLast (entries.map Entry.timeless) :=
  Fifo.map_markLast (fun _ => rfl) entries

theorem canAccept_timeless (lane : Lane) : lane.timeless.CanAccept ↔ lane.CanAccept := by
  simp [CanAccept, HoldsFinal, timeless, Entry.timeless]

theorem isReady_timeless (lane : Lane) : lane.timeless.IsReady ↔ lane.IsReady := by
  simp [IsReady, timeless]

theorem peek_timeless (lane : Lane) : lane.timeless.peek = lane.peek := by
  cases shape : lane.arrived <;> simp [peek, timeless, shape, Entry.timeless]

theorem accept_timeless (lane : Lane) (entry : Entry) :
    (lane.accept entry).timeless = lane.timeless.accept entry.timeless := by
  simp [accept, timeless, Entry.timeless]

theorem opened_timeless (lane : Lane) : lane.opened.timeless = lane.timeless.opened := by
  cases isOpen : lane.isOpen <;> simp [opened, timeless, isOpen]

theorem confirmed_timeless (lane : Lane) : lane.confirmed.timeless = lane.timeless.confirmed :=
  rfl

theorem finished_timeless (lane : Lane) : lane.finished.timeless = lane.timeless.finished := by
  have nothing : lane.timeless.waiting = [] ↔ lane.waiting = [] := List.map_eq_nil_iff
  unfold finished
  by_cases hasBlocks : (lane.isOpen && lane.isLoaded) = true
  · have hasBlocksTimeless : (lane.timeless.isOpen && lane.timeless.isLoaded) = true := hasBlocks
    rw [if_pos hasBlocks, if_pos hasBlocksTimeless]
    by_cases crossed : lane.waiting = []
    · rw [if_pos crossed, if_pos (nothing.mpr crossed)]
      simp [timeless, map_timeless_markLast]
    · rw [if_neg crossed, if_neg (mt nothing.mp crossed)]
      simp [timeless, map_timeless_markLast]
  · have noneTimeless : ¬ (lane.timeless.isOpen && lane.timeless.isLoaded) = true := hasBlocks
    rw [if_neg hasBlocks, if_neg noneTimeless]
    rfl

theorem dropOldest_timeless (lane : Lane) :
    lane.dropOldest.timeless = lane.timeless.dropOldest := by
  cases shape : lane.arrived <;> simp [dropOldest, timeless, shape, Entry.timeless]

theorem queued_timeless (lane : Lane) (block : Block) (readyAt : Time) :
    (lane.queued block readyAt).timeless = lane.timeless.queued block 0 := by
  simp [queued, timeless, Entry.timeless]

theorem flowOf_timeless {entries : List Entry} (due : ∀ entry ∈ entries, entry.readyAt ≤ now)
    (lane : Lane) :
    (flowOf now entries lane).timeless =
      flowOf 0 (entries.map Entry.timeless) lane.timeless := by
  induction entries generalizing lane with
  | nil => rfl
  | cons entry rest inductionHypothesis =>
    have isDue : entry.readyAt ≤ now := due entry (by simp)
    have restDue : ∀ later ∈ rest, later.readyAt ≤ now := fun later member =>
      due later (by simp [member])
    have atOnce : entry.timeless.readyAt ≤ 0 := UInt64.le_refl 0
    rw [List.map_cons]
    by_cases accepts : lane.CanAccept
    · rw [flowOf_of_able ⟨isDue, accepts⟩,
        flowOf_of_able ⟨atOnce, (canAccept_timeless lane).mpr accepts⟩, inductionHypothesis restDue,
        accept_timeless]
    · rw [flowOf_of_unable fun able => accepts able.2,
        flowOf_of_unable fun able => accepts ((canAccept_timeless lane).mp able.2)]
      rfl

theorem flow_timeless (due : lane.Due now) : (lane.flow now).timeless = lane.timeless.flow 0 :=
  flowOf_timeless due lane

/-- What waits although it is due is held back by the receiver, whatever the time. -/
theorem flow_of_due (due : lane.Due now) (settled : lane.Settled now) (later : Time) :
    lane.flow later = lane := by
  apply flow_of_settled
  intro entry rest shape able
  exact settled entry rest shape ⟨due entry (by simp [shape]), able.2⟩

theorem settled_timeless (due : lane.Due now) (settled : lane.Settled now) (later : Time) :
    lane.timeless.Settled later := by
  intro entry rest shape able
  obtain ⟨original, others, waiting, -, -⟩ := List.map_eq_cons_iff.mp shape
  have isDue := due original (by simp [waiting])
  exact settled original others waiting ⟨isDue, (canAccept_timeless lane).mp able.2⟩

theorem due_iff : lane.Due now ↔ ∀ stamp ∈ lane.waiting.map Entry.stamp, stamp.2 ≤ now := by
  simp [Due, Entry.stamp]

theorem due_finished (due : lane.Due now) : lane.finished.Due now := by
  have same : lane.finished.waiting.map Entry.stamp = lane.waiting.map Entry.stamp := by
    unfold finished
    split
    · split
      · rfl
      · exact map_stamp_markLast lane.waiting
    · rfl
  rw [due_iff, same, ← due_iff]
  exact due

/-- What a call of the sender does, up to times. -/
theorem send_timeless (due : lane.Due now) (command : Command) :
    (lane.send now now command).timeless = lane.timeless.send 0 0 command := by
  cases command with
  | openMessage => exact opened_timeless lane
  | closeMessage =>
    rw [send, flow_timeless (due_finished due), finished_timeless, send]
  | load block =>
    rw [send, send]
    by_cases ready : lane.IsReady
    · have dueQueued : (lane.queued block now).Due now := by
        intro entry member
        rcases List.mem_append.mp member with earlier | last
        · exact due entry earlier
        · rw [List.mem_singleton.mp last]
          exact UInt64.le_refl now
      rw [if_pos ready, if_pos ((isReady_timeless lane).mpr ready), flow_timeless dueQueued,
        queued_timeless]
    · rw [if_neg ready, if_neg (mt (isReady_timeless lane).mp ready)]
  | setWatermark | confirm | read | status | now | waitFor => rfl

/-- What a call of the receiver does, up to times. -/
theorem receive_timeless (due : lane.Due now) (command : Command) :
    (lane.receive now command).timeless = lane.timeless.receive 0 command := by
  cases command with
  | confirm =>
    have dueConfirmed : lane.confirmed.Due now := due
    rw [receive, flow_timeless dueConfirmed, confirmed_timeless, receive]
  | read =>
    rw [receive, receive, peek_timeless]
    cases lane.peek with
    | ok block =>
      have dueDropped : lane.dropOldest.Due now := by
        rw [Due, waiting_dropOldest]
        exact due
      dsimp only
      rw [flow_timeless dueDropped, dropOldest_timeless]
    | error refusal => rfl
  | setWatermark | openMessage | closeMessage | load | status | now | waitFor => rfl

end Timeless

end Lane

namespace Link

section Views

variable (link : Link)

theorem station_timeless (side : Side) :
    link.timeless.station side = (link.station side).timeless := by
  cases side <;> rfl

theorem lane_timeless (sender : Side) :
    link.timeless.lane sender = (link.lane sender).timeless := by
  cases sender <;> rfl

theorem status_timeless (side : Side) : link.timeless.status side = link.status side := by
  simp only [status, Station.status, station_timeless, Station.timeless, Fifo.size_timeless]

theorem watermark_timeless (side : Side) (queue : Queue) :
    (link.timeless.station side).watermark queue = (link.station side).watermark queue := by
  rw [station_timeless]
  cases queue <;> rfl

/-- The link with its clock set. -/
def withTime (time : Time) : Link := { link with time }

end Views

theorem value_effect_timeless (link : Link) (side : Side) (command : Command) :
    ((effect side command).run link).value = ((effect side command).run link.timeless).value := by
  cases command with
  | setWatermark queue level =>
    rw [effect, Step.run_map, Step.run_map, value_setWatermark, value_setWatermark]
  | load block =>
    rw [effect, Step.run_map, Step.run_map, value_load, value_load, lane_timeless]
    simp only [Lane.isReady_timeless]
  | read =>
    rw [effect, Step.run_map, Step.run_map, value_read, value_read, peek_eq_lane, peek_eq_lane,
      lane_timeless, Lane.peek_timeless]
  | status =>
    rw [effect, Step.run_observe, Step.run_observe, status_timeless]
  | openMessage | closeMessage | confirm | now | waitFor => rfl

/-- Whether a link has no latency and nothing on it is stamped for the future. -/
structure Prompt (link : Link) : Prop where
  latency : link.config.linkLatency = 0
  stamped : ∀ sender, ∀ stamp ∈ (link.lane sender).stamps, stamp.2 ≤ link.time
  settled : link.Settled

theorem unreset_law (side : Side) :
    ConductBy side fun _ events _ => ∀ event ∈ events, event ≠ .linkReset :=
  conductBy_of_quiet _ (fun _ quiet => quiet.ne_linkReset) side nofun nofun

namespace Prompt

variable {link : Link} (prompt : link.Prompt)
include prompt

theorem due (sender : Side) : (link.lane sender).Due link.time := by
  intro entry member
  have stamp : entry.stamp ∈ (link.lane sender).stamps :=
    List.mem_map_of_mem (List.mem_append_right _ member)
  exact prompt.stamped sender _ stamp

theorem flow_lane (sender : Side) (later : Time) :
    (link.lane sender).flow later = link.lane sender :=
  Lane.flow_of_due (prompt.due sender) (prompt.settled sender) later

/-- Nothing but the clock changes while time passes. -/
theorem advance (cycles : Time) :
    ((Link.advance cycles).run link).state = link.withTime (link.time.after cycles) := by
  have aside := aside_law.advance cycles link
  apply eq_of_lanes
  · exact ⟨aside.config, aside.staged, aside.watermark⟩
  · intro sender
    rw [lane_advance, prompt.flow_lane]
    rfl
  · rfl

theorem withTime {time : Time} (later : link.time ≤ time) : (link.withTime time).Prompt where
  latency := prompt.latency
  stamped sender stamp member := UInt64.le_trans (prompt.stamped sender stamp member) later
  settled sender entry rest shape able := by
    have waiting : (link.lane sender).waiting = entry :: rest := shape
    have isDue := prompt.due sender entry (by simp [waiting])
    exact prompt.settled sender entry rest shape ⟨isDue, able.2⟩

theorem charges (count : Nat) :
    ∃ time, link.time ≤ time ∧ ((Link.charges count).run link).state = link.withTime time := by
  induction count generalizing link with
  | zero => exact ⟨link.time, UInt64.le_refl _, rfl⟩
  | succ count inductionHypothesis =>
    have later : link.time ≤ link.time.after link.config.accessCycles := time_law.charge link
    have charged : (charge.run link).state =
        link.withTime (link.time.after link.config.accessCycles) := by
      rw [run_charge, prompt.advance]
    obtain ⟨time, notEarlier, rest⟩ := inductionHypothesis (prompt.withTime later)
    refine ⟨time, UInt64.le_trans later notEarlier, ?_⟩
    rw [state_charges_succ, charged, rest]
    rfl

/-- A link that is followed for some time is still prompt. -/
theorem passes {events : List Event} {last : Link} (passes : Passes link events last)
    (noReset : .linkReset ∉ events) (settled : last.Settled) : last.Prompt where
  latency := by rw [passes.1, prompt.latency]
  stamped sender stamp member := by
    obtain ⟨joined, left, -, -, passed⟩ := passes.2 noReset sender
    have origin : stamp ∈ (link.lane sender).stamps ++ joined := by
      rw [passed.stream]
      exact List.mem_append_right _ member
    rcases List.mem_append.mp origin with earlier | loaded
    · exact UInt64.le_trans (prompt.stamped sender stamp earlier) passed.later
    · obtain ⟨time, -, notLater, stamped⟩ := passed.stamped stamp loaded
      rw [stamped, prompt.latency, Time.after_zero]
      exact notLater
  settled := settled

theorem timeless : link.timeless.Prompt where
  latency := prompt.latency
  stamped sender stamp member := by
    rw [lane_timeless, Lane.stamps, Lane.timeless, ← List.map_append, List.map_map] at member
    obtain ⟨entry, -, rfl⟩ := List.mem_map.mp member
    exact UInt64.le_refl 0
  settled sender := by
    rw [lane_timeless]
    exact Lane.settled_timeless (prompt.due sender) (prompt.settled sender) _

section Effects

variable (side : Side) (command : Command)

theorem lane_effect_timeless (sender : Side) :
    (((effect side command).run link).state.lane sender).timeless =
      ((effect side command).run link.timeless).state.lane sender := by
  have noLatency : link.timeless.config.linkLatency = 0 := prompt.latency
  have atStart : link.timeless.time = 0 := rfl
  rw [lane_effect side command prompt.settled, lane_effect side command prompt.timeless.settled,
    lane_timeless, prompt.latency, noLatency, atStart, Time.after_zero, Time.after_zero]
  split
  · exact Lane.send_timeless (prompt.due sender) command
  · exact Lane.receive_timeless (prompt.due sender) command

/-- What a call does has nothing to do with time. -/
theorem state_effect :
    ((effect side command).run link).state.timeless =
      ((effect side command).run link.timeless).state := by
  have config : ((effect side command).run link).state.timeless.config = link.timeless.config := by
    rw [Link.timeless, config_effect, Link.timeless]
  apply eq_of_lanes
  · refine ⟨?_, ?_, ?_⟩
    · rw [config, config_effect]
    · rw [staged_effect]
      rfl
    · intro other queue
      rw [watermark_timeless]
      exact watermark_effect side command
        (fun other queue => (watermark_timeless link other queue).symm) other queue
  · intro sender
    rw [lane_timeless, prompt.lane_effect_timeless]
  · rw [time_effect]
    rfl

end Effects

/-- Accesses without a further effect keep the timeless link. -/
theorem timeless_charges (count : Nat) :
    ((Link.charges count).run link).state.Prompt ∧
      ((Link.charges count).run link).state.timeless = link.timeless := by
  obtain ⟨time, later, charged⟩ := prompt.charges count
  rw [charged]
  exact ⟨prompt.withTime later, rfl⟩

end Prompt

/-- Whether a call answers what it answers on the timeless link and leaves what it leaves
there. -/
def Ageless (route : Route) (side : Side) (command : Command) (link : Link) : Prop :=
  let outcome := (call route side command).run link
  let timeless := (effect side command).run link.timeless
  outcome.value = .ok timeless.value ∧ outcome.state.timeless = timeless.state

namespace Prompt

variable {link : Link} (prompt : link.Prompt)
include prompt

theorem call (route : Route) (side : Side) (command : Command) :
    ((Link.call route side command).run link).state.Prompt := by
  apply prompt.passes ((passes_law.conductBy side).call route command link)
  · intro member
    exact (unreset_law side).call route command link _ member rfl
  · exact (settled_law.conductBy side).call route command link prompt.settled

variable {side : Side} {command : Command}

theorem ageless_direct (isAccess : command.IsAccess) : link.Ageless .direct side command := by
  obtain ⟨charged, same⟩ := prompt.timeless_charges 1
  have answered := value_effect_timeless (charge.run link).state side command
  have changed := charged.state_effect side command
  rw [same] at changed
  rw [show (charge.run link).state.timeless = link.timeless from same] at answered
  rw [Ageless, run_directCall link side isAccess]
  exact ⟨congrArg Except.ok answered, changed⟩

theorem ageless_act (acts : command.Acts) (valid : (link.station side).Watermarked)
    (isAccess : command.IsAccess) : link.Ageless .registers side command := by
  obtain ⟨charged, same⟩ := prompt.timeless_charges 1
  have later : Ageless .direct side command _ := charged.ageless_direct isAccess
  rw [Ageless, same] at later
  rw [Ageless, callAct_refines acts valid, Step.run_bind]
  exact later

theorem ageless_load (block : Block) : link.Ageless .registers side (.load block) := by
  obtain ⟨charged, same⟩ := prompt.timeless_charges 4
  have direct : link.Ageless .direct side (.load block) := prompt.ageless_direct trivial
  have delayed : Ageless .direct side (.load block) _ := charged.ageless_direct trivial
  rw [Ageless, same] at delayed
  obtain ⟨value, ⟨-, state⟩ | ⟨-, state⟩⟩ := callLoad_refines link side block
  · rw [Ageless, value, state]
    exact direct
  · rw [Ageless, value, state]
    exact ⟨direct.1, delayed.2⟩

theorem ageless_read (framed : ((charge.run link).state.station side).Framed) :
    link.Ageless .registers side .read := by
  have direct : link.Ageless .direct side .read := prompt.ageless_direct trivial
  have later := (prompt.call .direct side .read).timeless_charges 4
  obtain ⟨value, ⟨refusal, -, state⟩ | ⟨block, -, state⟩⟩ := callRead_refines framed
  · rw [Ageless, value, state]
    exact direct
  · rw [Ageless, value, state, later.2]
    exact direct

theorem ageless_refused (queue : Queue) {level : UInt64} (invalid : ¬ WatermarkValid level) :
    link.Ageless .registers side (.setWatermark queue level) := by
  have direct : link.Ageless .direct side (.setWatermark queue level) :=
    prompt.ageless_direct trivial
  have kept := (prompt.timeless_charges 1).2
  obtain ⟨driven, refused⟩ := callSetWatermark_of_invalid link side queue invalid
  rw [Ageless, refused] at direct
  rw [Ageless, driven]
  exact ⟨direct.1, kept.symm.trans direct.2⟩

/-- Whichever way a call takes, it has nothing to do with time. -/
theorem ageless (route : Route) (framed : ((charge.run link).state.station side).Framed)
    (valid : (link.station side).Watermarked) (isAccess : command.IsAccess) :
    link.Ageless route side command := by
  cases route with
  | direct => exact prompt.ageless_direct isAccess
  | registers =>
    cases command with
    | openMessage | closeMessage | confirm => exact prompt.ageless_act trivial valid isAccess
    | setWatermark queue level =>
      by_cases inRange : WatermarkValid level
      · exact prompt.ageless_act inRange valid isAccess
      · exact prompt.ageless_refused queue inRange
    | load block => exact prompt.ageless_load block
    | read => exact prompt.ageless_read framed
    | status =>
      rw [Ageless, callStatus_refines]
      exact prompt.ageless_direct isAccess
    | now | waitFor => exact absurd isAccess id

end Prompt

end Link

namespace Operation

/-- The call that an operation is, whichever way it takes. -/
def call? : Operation → Option (Side × Command)
  | .call _ side command => some (side, command)
  | .readRegister .. | .writeRegister .. | .advance _ | .reset | .reportStatus _
  | .restore _ => none

/-- Whether an operation is a call that takes an access, or lets time pass. -/
def IsCallOrPause : Operation → Prop
  | .call _ _ command => command.IsAccess
  | .advance _ => True
  | .readRegister .. | .writeRegister .. | .reset | .reportStatus _ | .restore _ => False

instance : (operation : Operation) → Decidable operation.IsCallOrPause
  | .call _ _ command => inferInstanceAs (Decidable command.IsAccess)
  | .advance _ => .isTrue trivial
  | .readRegister .. | .writeRegister .. | .reset | .reportStatus _ | .restore _ => .isFalse id

theorem IsCallOrPause.fresh {operation : Operation} (isCall : operation.IsCallOrPause) :
    ¬ operation.Restores := by
  intro restores
  cases operation with
  | restore => exact isCall
  | call | readRegister | writeRegister | advance | reset | reportStatus => exact restores

end Operation

/-- What a call of a run shows: its answer, and the instances afterwards up to times. -/
def Checkpoint.shown? (checkpoint : Checkpoint) : Option (Answer × PerSide Station) :=
  checkpoint.operation.call?.map fun _ =>
    (checkpoint.answer,
      ⟨(checkpoint.link.station .left).timeless, (checkpoint.link.station .right).timeless⟩)

/-- A run of calls on a new link without latency, with any time between them. -/
structure PromptRun where
  config : Config
  start : Link
  created : Link.create config = .ok start
  operations : List Operation
  noLatency : config.linkLatency = 0
  onlyCalls : ∀ operation ∈ operations, operation.IsCallOrPause

namespace Link

/-- What calls show if they are made one after another and no access takes any time. -/
def replay : List (Side × Command) → Link → List (Answer × PerSide Station)
  | [], _ => []
  | (side, command) :: rest, link =>
    let done := (effect side command).run link
    (.reply done.value, done.state.stations) :: replay rest done.state

theorem Ageless.shown? {route : Route} {side : Side} {command : Command} {link : Link}
    (ageless : link.Ageless route side command) :
    (checkpoint (.call route side command) link).shown? =
      let done := (effect side command).run link.timeless
      some (.reply done.value, done.state.stations) := by
  have shown : (checkpoint (.call route side command) link).shown? =
      some (.ofReply ((call route side command).run link).value,
        ((call route side command).run link).state.timeless.stations) :=
    rfl
  rw [shown, ageless.1, ageless.2]
  rfl

/-- A run shows what its calls show on the timeless link. -/
theorem Prompt.shown {link : Link} (prompt : link.Prompt) {log : List Event}
    (follows : link.Follows log) (valid : link.Watermarked) (operations : List Operation)
    (onlyCalls : ∀ operation ∈ operations, operation.IsCallOrPause) :
    (checkpoints operations link).filterMap Checkpoint.shown? =
      replay (operations.filterMap Operation.call?) link.timeless := by
  induction operations generalizing link log with
  | nil => rfl
  | cons operation rest inductionHypothesis =>
    have isCall := onlyCalls operation (by simp)
    have restCalls : ∀ later ∈ rest, later.IsCallOrPause := by
      intro later member
      exact onlyCalls later (by simp [member])
    have followsOn := follows.step (trace_law.perform operation isCall.fresh)
    have validOn := watermarks_law.perform operation isCall.fresh link valid
    cases operation with
    | call route side command =>
      have later := inductionHypothesis (prompt.call route side command) followsOn validOn restCalls
      have ageless : link.Ageless route side command :=
        prompt.ageless route (follows.charge.framed side) (valid.2 side) isCall
      have called : (Operation.call route side command).call? = some (side, command) := rfl
      rw [ageless.2] at later
      rw [checkpoints, List.filterMap_cons_some ageless.shown?, List.filterMap_cons_some called,
        replay]
      exact congrArg (List.cons _) later
    | advance cycles =>
      have paused : ((perform (.advance cycles)).run link).state =
          link.withTime (link.time.after cycles) :=
        prompt.advance cycles
      rw [paused] at followsOn validOn
      have later := inductionHypothesis (prompt.withTime (time_law.advance cycles link)) followsOn
        validOn restCalls
      rw [checkpoints, paused, List.filterMap_cons_none rfl, List.filterMap_cons_none rfl]
      exact later
    | readRegister | writeRegister | reset | reportStatus | restore => exact absurd isCall id

theorem Prompt.idle {config : Config} (noLatency : config.linkLatency = 0) (time : Time) :
    (Link.idle config time).Prompt where
  latency := noLatency
  stamped sender := by
    rw [lane_idle]
    simp [Lane.stamps, Lane.idle]
  settled := settled_idle config time

end Link

namespace PromptRun

variable (run : PromptRun)

def calls : List (Side × Command) := run.operations.filterMap Operation.call?

def shown : List (Answer × PerSide Station) :=
  (Link.checkpoints run.operations run.start).filterMap Checkpoint.shown?

theorem shown_eq : run.shown = Link.replay run.calls (Link.idle run.config 0).timeless := by
  have start := (Link.create_eq_ok_iff.mp run.created).2
  have prompt : run.start.Prompt := by
    rw [start]
    exact .idle run.noLatency 0
  rw [shown, prompt.shown (.start run.created) (.created run.created) run.operations run.onlyCalls,
    start]
  rfl

/-- Without latency, runs that make the same calls show the same: no answer and no instance
tells how much time has passed, what an access costs, or which way a call went. -/
theorem timing_unobservable (first second : PromptRun)
    (watermarks : first.config.txWatermark = second.config.txWatermark ∧
      first.config.rxWatermark = second.config.rxWatermark)
    (sameCalls : first.calls = second.calls) : first.shown = second.shown := by
  have settings : ({ first.config with accessCycles := 0, compressSavestates := false } : Config) =
      { second.config with accessCycles := 0, compressSavestates := false } := by
    simp only [watermarks.1, watermarks.2, first.noLatency, second.noLatency]
  have sameStart : (Link.idle first.config 0).timeless = (Link.idle second.config 0).timeless :=
    congrArg (Link.idle · 0) settings
  rw [shown_eq, shown_eq, sameCalls, sameStart]

theorem timing_unobservable_across_routes :
    let block : Block := ⟨1, 2, 3, 4⟩
    let first : PromptRun := {
      config := {}
      start := .idle {} 0
      created := rfl
      operations :=
        [.call .direct .left .openMessage, .call .direct .left (.load block), .advance 5,
          .call .registers .right .read]
      noLatency := rfl
      onlyCalls := by decide }
    let second : PromptRun := {
      config := { accessCycles := 7, compressSavestates := true }
      start := .idle { accessCycles := 7, compressSavestates := true } 0
      created := rfl
      operations :=
        [.call .registers .left .openMessage, .advance 100,
          .call .registers .left (.load block), .call .direct .right .read]
      noLatency := rfl
      onlyCalls := by decide }
    (first.config.txWatermark = second.config.txWatermark ∧
      first.config.rxWatermark = second.config.rxWatermark) ∧
    first.calls = second.calls ∧ first.shown = second.shown := by
  intro block first second
  exact ⟨⟨rfl, rfl⟩, rfl, timing_unobservable first second ⟨rfl, rfl⟩ rfl⟩

end PromptRun

end BlockLink
