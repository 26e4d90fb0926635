import BlockLink.Proofs.Equations

/-!
The two directions of the link.

A lane is one direction: the sender's transmit FIFO, the receiver's receive FIFO
and the framing between them. `Lane.Move` lists everything that can happen on a
lane at once, and the events that report it. Every operation on the link moves
along both lanes, and its log is the log of these moves.
-/

namespace BlockLink

@[ext]
structure Lane where
  /-- What the sender holds for transmission, the oldest first. -/
  waiting : List Entry
  /-- What the receiver has not read yet, the oldest first. -/
  arrived : List Entry
  /-- Whether the sender has a message open. -/
  isOpen : Bool
  /-- Whether the sender has loaded a block since it opened the message. -/
  isLoaded : Bool
  /-- Whether the receiver has a boundary to confirm. -/
  isPending : Bool

namespace Lane

def between (source target : Station) : Lane where
  waiting := source.tx.entries
  arrived := target.rx.entries
  isOpen := source.messageOpen
  isLoaded := source.messageLoaded
  isPending := target.boundaryPending

def idle : Lane where
  waiting := []
  arrived := []
  isOpen := false
  isLoaded := false
  isPending := false

/-- Whether the receiver holds the end of a message. -/
def HoldsFinal (lane : Lane) : Prop := ∃ entry ∈ lane.arrived, entry.final = true

/-- Whether the receiver takes another entry. -/
def CanAccept (lane : Lane) : Prop :=
  lane.arrived.length < Fifo.depth ∧ lane.isPending = false ∧ ¬ lane.HoldsFinal

instance (lane : Lane) : Decidable lane.HoldsFinal :=
  inferInstanceAs (Decidable (∃ entry ∈ lane.arrived, entry.final = true))

instance (lane : Lane) : Decidable lane.CanAccept :=
  inferInstanceAs (Decidable (_ ∧ _ ∧ _))

end Lane

def Link.lane (link : Link) (sender : Side) : Lane :=
  .between (link.station sender) (link.station sender.peer)

/-- Whether an event reports a change of the lane from a sender. -/
def Event.Concerns (sender : Side) : Event → Prop
  | .station side .messageOpened | .station side .messageClosed => side = sender
  | .station side (.boundaryMarked _) | .station side .boundaryConfirmed
  | .station side .finalArrived => side = sender.peer
  | .loaded side _ | .crossed side _ => side = sender
  | .read side _ => side = sender.peer
  | .linkReset => True
  | .reported .. | .waitTimedOut .. | .watermarkIgnored .. | .blockDropped ..
  | .windowUnreadable .. | .interruptRead .. | .writeOnlyRead .. | .unknownRead ..
  | .interruptWrite .. | .readOnlyWrite .. | .unknownWrite .. => False

namespace Lane

/-- Something that happens on a lane at once, with the events that report it. -/
inductive Move (sender : Side) : Lane → List Event → Lane → Prop where
  /-- What is reported has to do with the other lane, or with none. -/
  | elsewhere {lane : Lane} {event : Event} :
      ¬ event.Concerns sender → Move sender lane [event] lane
  | opened {lane : Lane} :
      lane.isOpen = false →
      Move sender lane [.station sender .messageOpened]
        { lane with isOpen := true, isLoaded := false }
  /-- A message is closed while none is open. -/
  | closedNone {lane : Lane} :
      lane.isOpen = false → Move sender lane [] { lane with isLoaded := false }
  | closedEmpty {lane : Lane} :
      lane.isOpen = true → lane.isLoaded = false →
      Move sender lane [.station sender .messageClosed] { lane with isOpen := false }
  /-- The final block is still with the sender. -/
  | closedWaiting {lane : Lane} :
      lane.isOpen = true → lane.isLoaded = true → lane.waiting ≠ [] →
      Move sender lane [.station sender .messageClosed]
        { lane with
          waiting := Fifo.markLast lane.waiting
          isOpen := false
          isLoaded := false }
  /-- The final block has already crossed. -/
  | closedCrossed {lane : Lane} :
      lane.isOpen = true → lane.isLoaded = true → lane.waiting = [] →
      Move sender lane
        [.station sender .messageClosed,
          .station sender.peer (.boundaryMarked lane.arrived.length)]
        { lane with
          arrived := Fifo.markLast lane.arrived
          isOpen := false
          isLoaded := false
          isPending := true }
  | loaded {lane : Lane} (block : Block) (readyAt : Time) :
      lane.isOpen = true → lane.waiting.length < Fifo.depth →
      Move sender lane [.loaded sender block]
        { lane with
          waiting := lane.waiting ++ [{ block, final := false, readyAt }]
          isLoaded := true }
  | crossed {lane : Lane} {entry : Entry} {rest : List Entry} :
      lane.waiting = entry :: rest → lane.CanAccept →
      Move sender lane (Link.crossing sender entry)
        { lane with
          waiting := rest
          arrived := lane.arrived ++ [entry]
          isPending := entry.final }
  | confirmed {lane : Lane} :
      lane.isPending = true →
      Move sender lane [.station sender.peer .boundaryConfirmed] { lane with isPending := false }
  | read {lane : Lane} {entry : Entry} {rest : List Entry} :
      lane.arrived = entry :: rest → ¬ (entry.final = true ∧ lane.isPending = true) →
      Move sender lane [.read sender.peer entry.block]
        { lane with arrived := rest, isPending := lane.isPending && !entry.final }
  | reset {lane : Lane} : Move sender lane [.linkReset] idle

/-- Moves one after another, with everything that they report. -/
inductive Trace (sender : Side) (start : Lane) : List Event → Lane → Prop where
  | rest : Trace sender start [] start
  | next {log events : List Event} {middle last : Lane} :
      Trace sender start log middle → Move sender middle events last →
      Trace sender start (log ++ events) last

namespace Trace

variable {sender : Side} {first middle last : Lane} {before after : List Event}

theorem single (move : Move sender first before last) : Trace sender first before last :=
  .next .rest move

theorem append (left : Trace sender first before middle) (right : Trace sender middle after last) :
    Trace sender first (before ++ after) last := by
  induction right with
  | rest =>
    rw [List.append_nil]
    exact left
  | next _ move inductionHypothesis =>
    rw [← List.append_assoc]
    exact .next inductionHypothesis move

theorem elsewhere {events : List Event} (foreign : ∀ event ∈ events, ¬ event.Concerns sender) :
    Trace sender first events first := by
  induction events with
  | nil => exact .rest
  | cons event events inductionHypothesis =>
    have head : Trace sender first [event] first :=
      single (.elsewhere (foreign event (by simp)))
    exact head.append (inductionHypothesis fun later member => foreign later (by simp [member]))

end Trace

end Lane

namespace Link

section Views

variable (link : Link) (side : Side) (station : Station)

@[simp]
theorem lane_withStation_self :
    (link.withStation side station).lane side = .between station (link.station side.peer) := by
  simp [lane]

@[simp]
theorem lane_withStation_peer :
    (link.withStation side station).lane side.peer =
      .between (link.station side.peer) station := by
  simp [lane]

theorem lane_peer :
    link.lane side.peer = .between (link.station side.peer) (link.station side) := by
  simp [lane]

end Views

theorem lane_idle (config : Config) (time : Time) (sender : Side) :
    (Link.idle config time).lane sender = .idle := by
  simp [lane, station, Link.idle, Lane.between, Lane.idle, Station.idle]

/-- Replacing one instance moves along the lane that it sends on and the lane that it
receives on. -/
theorem trace_withStation {link : Link} {side : Side} {station : Station} {events : List Event}
    (asSource : Lane.Trace side (link.lane side) events
      (.between station (link.station side.peer)))
    (asTarget : Lane.Trace side.peer (link.lane side.peer) events
      (.between (link.station side.peer) station)) (sender : Side) :
    Lane.Trace sender (link.lane sender) events ((link.withStation side station).lane sender) := by
  rcases Side.self_or_peer side sender with rfl | rfl
  · rw [lane_withStation_self]
    exact asSource
  · rw [lane_withStation_peer]
    exact asTarget

theorem trace_withStations {link : Link} {side : Side} {source target : Station}
    {events : List Event}
    (forth : Lane.Trace side (link.lane side) events (.between source target))
    (back : Lane.Trace side.peer (link.lane side.peer) events (.between target source))
    (sender : Side) :
    Lane.Trace sender (link.lane sender) events
      (((link.withStation side source).withStation side.peer target).lane sender) := by
  rcases Side.self_or_peer side sender with rfl | rfl
  · simpa [lane] using forth
  · simpa [lane] using back

section Moves

variable (link : Link) (side sender : Side)

theorem trace_setWatermark (queue : Queue) (level : UInt64) :
    Lane.Trace sender (link.lane sender) ((setWatermark side queue level).run link).events
      (((setWatermark side queue level).run link).state.lane sender) := by
  rw [setWatermark, run_atStation]
  by_cases valid : WatermarkValid level
  · rw [Station.run_setWatermark_of_valid _ queue valid]
    refine trace_withStation ?_ ?_ sender
    · cases queue <;> exact .rest
    · rw [lane_peer]
      cases queue <;> exact .rest
  · rw [Station.run_setWatermark_of_invalid _ queue valid, withStation_self]
    exact .rest

theorem trace_openMessage :
    Lane.Trace sender (link.lane sender) ((openMessage side).run link).events
      (((openMessage side).run link).state.lane sender) := by
  rw [openMessage, run_atStation]
  cases isOpen : (link.station side).messageOpen with
  | true =>
    rw [Station.run_openMessage_of_open isOpen, withStation_self]
    exact .rest
  | false =>
    rw [Station.run_openMessage_of_shut isOpen]
    refine trace_withStation ?_ ?_ sender
    · exact .single (.opened isOpen)
    · rw [lane_peer]
      exact .single (.elsewhere (by simp [Event.Concerns]))

theorem trace_confirm :
    Lane.Trace sender (link.lane sender) ((atStation side Station.confirm).run link).events
      (((atStation side Station.confirm).run link).state.lane sender) := by
  rw [run_atStation]
  cases isPending : (link.station side).boundaryPending with
  | true =>
    rw [Station.run_confirm_of_pending isPending]
    refine trace_withStation ?_ ?_ sender
    · exact .single (.elsewhere (by simp [Event.Concerns]))
    · have move : Lane.Move side.peer (link.lane side.peer) _ _ :=
        .confirmed (by simpa [lane_peer, Lane.between] using isPending)
      simpa [lane_peer, Lane.between] using Lane.Trace.single move
  | false =>
    rw [Station.run_confirm_of_clear isPending, withStation_self]
    exact .rest

theorem trace_enqueue (block : Block) :
    Lane.Trace sender (link.lane sender) ((enqueue side block).run link).events
      (((enqueue side block).run link).state.lane sender) := by
  by_cases ready : (link.station side).messageOpen = true ∧ (link.station side).tx.HasRoom
  · rw [run_enqueue_of_ready block ready]
    refine trace_withStation ?_ ?_ sender
    · exact .single (.loaded block _ ready.1 ready.2)
    · rw [lane_peer]
      exact .single (.elsewhere (by simp [Event.Concerns]))
  · rw [run_enqueue_of_unready block ready]
    exact .rest

theorem trace_dequeue :
    Lane.Trace sender (link.lane sender) ((dequeue side).run link).events
      (((dequeue side).run link).state.lane sender) := by
  cases shown : (link.station side).peek with
  | ok block =>
    rw [run_dequeue_of_ok shown]
    obtain ⟨entry, rest, shape, rfl, free⟩ := (Station.peek_eq_ok_iff _).mp shown
    have dropped : (link.station side).dropOldestRx =
        { link.station side with
          rx := (link.station side).rx.drop 1
          boundaryPending := (link.station side).boundaryPending && !entry.final } := by
      simp [Station.dropOldestRx, Fifo.oldest?, shape]
    rw [dropped]
    refine trace_withStation ?_ ?_ sender
    · exact .single (.elsewhere (by simp [Event.Concerns]))
    · have move : Lane.Move side.peer (link.lane side.peer) _ _ :=
        .read (by simpa [lane_peer, Lane.between] using shape)
          (by simpa [lane_peer, Lane.between] using free)
      simpa [lane_peer, Lane.between, shape] using Lane.Trace.single move
  | error refusal =>
    rw [run_dequeue_of_error shown]
    exact .rest

theorem trace_finish :
    Lane.Trace sender (link.lane sender) ((finish side).run link).events
      (((finish side).run link).state.lane sender) := by
  have finished := finished link side
  generalize (finish side).run link = outcome at finished ⊢
  cases finished with
  | shut isShut =>
    apply trace_withStation
    · have move : Lane.Move side (link.lane side) [] _ := .closedNone isShut
      simpa [lane, Lane.between, isShut] using Lane.Trace.single move
    · rw [lane_peer]
      exact .rest
  | empty isOpen isEmpty =>
    apply trace_withStation
    · have move : Lane.Move side (link.lane side) _ _ := .closedEmpty isOpen isEmpty
      simpa [lane, Lane.between, isEmpty] using Lane.Trace.single move
    · rw [lane_peer]
      exact .single (.elsewhere (by simp [Event.Concerns]))
  | waiting isOpen isLoaded waiting =>
    apply trace_withStation
    · have nonempty : (link.lane side).waiting ≠ [] := by
        intro nothing
        exact waiting (congrArg List.length nothing)
      exact .single (.closedWaiting isOpen isLoaded nonempty)
    · rw [lane_peer]
      exact .single (.elsewhere (by simp [Event.Concerns]))
  | crossed isOpen isLoaded crossed =>
    apply trace_withStations
    · exact .single (.closedCrossed isOpen isLoaded (List.eq_nil_of_length_eq_zero crossed))
    · rw [lane_peer]
      exact .elsewhere (by simp [Event.Concerns])

end Moves

theorem trace_intake (sender : Side) (now : Time) (source target : Station)
    (entries : List Entry) :
    Lane.Trace sender { Lane.between source target with waiting := entries }
      ((entries.take (Station.intake now entries target).1).flatMap (crossing sender))
      { Lane.between source (Station.intake now entries target).2 with
        waiting := entries.drop (Station.intake now entries target).1 } := by
  induction entries generalizing target with
  | nil => exact .rest
  | cons entry rest inductionHypothesis =>
    by_cases able : entry.readyAt ≤ now ∧ target.CanAccept
    · have first : Lane.Trace sender { Lane.between source target with waiting := entry :: rest }
          (crossing sender entry)
          { Lane.between source (target.accept entry able.2) with waiting := rest } := by
        obtain ⟨room, clear, noFinal⟩ := able.2
        have move : Lane.Move sender
            { Lane.between source target with waiting := entry :: rest } _ _ :=
          .crossed rfl ⟨room, clear, noFinal⟩
        simpa [Lane.between, Station.accept, clear] using Lane.Trace.single move
      have taken := first.append (inductionHypothesis (target.accept entry able.2))
      simpa [Station.intake, able] using taken
    · simp only [Station.intake, able, dif_neg, not_false_eq_true]
      exact .rest

theorem trace_deliver (link : Link) (side sender : Side) :
    Lane.Trace sender (link.lane sender) ((deliver side).run link).events
      (((deliver side).run link).state.lane sender) := by
  rw [run_deliver]
  refine trace_withStations ?_ ?_ sender
  · exact trace_intake side link.time (link.station side) (link.station side.peer) _
  · rw [lane_peer, Station.intake_kept]
    apply Lane.Trace.elsewhere
    intro event member
    obtain ⟨entry, -, reported⟩ := List.mem_flatMap.mp member
    cases final : entry.final <;> simp [crossing, final] at reported
    · subst reported
      simp [Event.Concerns]
    · rcases reported with rfl | rfl <;> simp [Event.Concerns]

/-- Whether a link with settings that it can be created with keeps them, and moves along both
lanes from one state to another. -/
def Traces (link : Link) (events : List Event) (last : Link) : Prop :=
  link.config.Accepted → last.config.Accepted ∧
    ∀ sender, Lane.Trace sender (link.lane sender) events (last.lane sender)

theorem Traces.of_config {link last : Link} {events : List Event}
    (config : last.config = link.config)
    (trace : ∀ sender, Lane.Trace sender (link.lane sender) events (last.lane sender)) :
    link.Traces events last := by
  intro accepted
  rw [config]
  exact ⟨accepted, trace⟩

theorem trace_law : Law Traces where
  rest _ := .of_config rfl fun _ => .rest
  next first second accepted := by
    obtain ⟨acceptedMiddle, traceFirst⟩ := first accepted
    obtain ⟨acceptedLast, traceSecond⟩ := second acceptedMiddle
    exact ⟨acceptedLast, fun sender => (traceFirst sender).append (traceSecond sender)⟩
  elapse _ _ := .of_config rfl fun _ => .rest
  deliver side link := .of_config rfl (trace_deliver link side)
  setWatermark side queue level link :=
    .of_config rfl fun sender => trace_setWatermark link side sender queue level
  openMessage side link := .of_config rfl fun sender => trace_openMessage link side sender
  finish side link :=
    .of_config (config_law.finish side link) fun sender => trace_finish link side sender
  confirm side link := .of_config rfl fun sender => trace_confirm link side sender
  enqueue side block link :=
    .of_config (config_law.enqueue side block link) fun sender =>
      trace_enqueue link side sender block
  dequeue side link :=
    .of_config (config_law.dequeue side link) fun sender => trace_dequeue link side sender
  stage _ _ _ _ := .of_config rfl fun _ => .rest
  reset link accepted := by
    rw [run_reset_of_accepted accepted]
    refine ⟨accepted, fun sender => ?_⟩
    rw [lane_idle]
    exact .single .reset
  remark event isRemark _ := by
    refine .of_config rfl fun _ => ?_
    apply Lane.Trace.single
    apply Lane.Move.elsewhere
    intro concerns
    cases event <;> first | exact isRemark | exact concerns

end Link

end BlockLink
