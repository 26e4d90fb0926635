import BlockLink.Proofs.Delivery

/-!
What the calls of a side do to the lanes.

A side sends on one lane and receives on the other. Opening, loading and closing
change the lane that it sends on, reading and confirming the one that it receives
on, and neither change depends on anything but that lane, the clock and the
latency. What a call delivers may cross on both lanes.
-/

namespace BlockLink

/-- Whether a call takes a single access of the model. Reading the clock takes none, and
waiting takes as many as it polls. -/
def Command.IsAccess : Command → Prop
  | .now | .waitFor _ => False
  | .setWatermark .. | .openMessage | .closeMessage | .confirm | .load _ | .read | .status => True

instance : (command : Command) → Decidable command.IsAccess
  | .now | .waitFor _ => .isFalse id
  | .setWatermark .. | .openMessage | .closeMessage | .confirm | .load _ | .read | .status =>
    .isTrue trivial

namespace Lane

variable (lane : Lane)

/-- The lane when its sender has opened a message. An open one stays as it is. -/
def opened : Lane :=
  if lane.isOpen then lane else { lane with isOpen := true, isLoaded := false }

/-- The lane when its sender has closed its message, before anything crosses. -/
def finished : Lane :=
  if lane.isOpen && lane.isLoaded then
    if lane.waiting = [] then
      { lane with
        arrived := Fifo.markLast lane.arrived
        isOpen := false
        isLoaded := false
        isPending := true }
    else
      { lane with
        waiting := Fifo.markLast lane.waiting
        isOpen := false
        isLoaded := false }
  else { lane with isOpen := false, isLoaded := false }

/-- Whether the sender takes a block for transmission. -/
def IsReady : Prop := lane.isOpen = true ∧ lane.waiting.length < Fifo.depth

instance : Decidable lane.IsReady :=
  inferInstanceAs (Decidable (_ ∧ _))

/-- The lane with one more block for transmission. -/
def queued (block : Block) (readyAt : Time) : Lane :=
  { lane with
    waiting := lane.waiting ++ [{ block, final := false, readyAt }]
    isLoaded := true }

def confirmed : Lane := { lane with isPending := false }

/-- The oldest block that has arrived, if it may be read now. -/
def peek : Except Refusal Block :=
  match lane.arrived with
  | [] => .error .unavailable
  | entry :: _ => if entry.final && lane.isPending then .error .blocked else .ok entry.block

/-- Whether nothing that waits could cross. -/
def Settled (now : Time) : Prop :=
  ∀ entry rest, lane.waiting = entry :: rest → ¬ (entry.readyAt ≤ now ∧ lane.CanAccept)

section Settled

variable {lane} {now : Time}

theorem flow_of_settled (settled : lane.Settled now) : lane.flow now = lane := by
  cases shape : lane.waiting with
  | nil => rw [flow, shape, flowOf, ← shape]
  | cons entry rest => rw [flow, shape, flowOf_of_unable (settled entry rest shape), ← shape]

/-- Nothing crosses behind the end of a message that is not read yet. -/
theorem flow_of_holdsFinal (holds : lane.HoldsFinal) (now : Time) : lane.flow now = lane := by
  apply flow_of_settled
  rintro entry rest - ⟨-, -, -, noFinal⟩
  exact noFinal holds

theorem settled_flowOf (now : Time) (lane : Lane) (entries : List Entry) :
    (flowOf now entries lane).Settled now := by
  induction entries generalizing lane with
  | nil => simp [Settled, flowOf]
  | cons entry rest inductionHypothesis =>
    by_cases able : entry.readyAt ≤ now ∧ lane.CanAccept
    · rw [flowOf_of_able able]
      exact inductionHypothesis (lane.accept entry)
    · rw [flowOf_of_unable able]
      intro oldest others shape
      obtain ⟨rfl, -⟩ := List.cons.inj shape
      exact able

theorem settled_flow (now : Time) (lane : Lane) : (lane.flow now).Settled now :=
  settled_flowOf now lane lane.waiting

theorem Settled.opened (settled : lane.Settled now) : lane.opened.Settled now := by
  unfold Lane.opened
  split <;> exact settled

end Settled

/-- The lane after a call of its sender, when what became ready has crossed. -/
def send (now readyAt : Time) (lane : Lane) : Command → Lane
  | .openMessage => lane.opened
  | .closeMessage => lane.finished.flow now
  | .load block =>
    if lane.IsReady then (lane.queued block readyAt).flow now else lane
  | .setWatermark .. | .confirm | .read | .status | .now | .waitFor _ => lane

/-- The lane after a call of its receiver, when what became free has been taken. -/
def receive (now : Time) (lane : Lane) : Command → Lane
  | .confirm => lane.confirmed.flow now
  | .read =>
    match lane.peek with
    | .ok _ => lane.dropOldest.flow now
    | .error _ => lane
  | .setWatermark .. | .openMessage | .closeMessage | .load _ | .status | .now | .waitFor _ => lane

section Confirmed

variable {lane}

theorem confirmed_of_clear (isClear : lane.isPending = false) : lane.confirmed = lane := by
  rw [confirmed, ← isClear]

/-- A boundary that a delivery makes pending is that of a message end that has just arrived. -/
theorem holdsFinal_flow (isClear : lane.isPending = false) (now : Time) :
    (lane.flow now).isPending = true → (lane.flow now).HoldsFinal := by
  refine holds_flowOf (fun lane => lane.isPending = true → lane.HoldsFinal)
    (fun _ _ held => held) ?_ lane.waiting fun isPending => ?_
  · intro lane entry _ _ _ final
    exact ⟨entry, by simp [accept], final⟩
  · rw [isClear] at isPending
    cases isPending

/-- To confirm twice is to confirm once and to clear the boundary that this may have released. -/
theorem receive_confirm_confirm (now : Time) (lane : Lane) :
    (lane.receive now .confirm).receive now .confirm = (lane.receive now .confirm).confirmed := by
  change (lane.confirmed.flow now).confirmed.flow now = (lane.confirmed.flow now).confirmed
  cases isPending : (lane.confirmed.flow now).isPending with
  | true =>
    have holds : (lane.confirmed.flow now).confirmed.HoldsFinal := holdsFinal_flow rfl now isPending
    exact flow_of_holdsFinal holds now
  | false =>
    rw [confirmed_of_clear isPending]
    exact flow_of_settled (settled_flow now lane.confirmed)

end Confirmed

end Lane

namespace Link

variable (link : Link) (side : Side)

theorem peek_eq_lane : (link.station side).peek = (link.lane side.peer).peek := by
  rw [lane_peer]
  cases shape : (link.station side).rx.entries <;>
    simp [Station.peek, Fifo.oldest?, Lane.peek, Lane.between, shape]

section Opening

theorem lane_openMessage_self :
    ((openMessage side).run link).state.lane side = (link.lane side).opened := by
  rw [openMessage, run_atStation, lane_withStation_self]
  cases isOpen : (link.station side).messageOpen with
  | true => simp [Station.run_openMessage_of_open, isOpen, Lane.opened, lane, Lane.between]
  | false => simp [Station.run_openMessage_of_shut, isOpen, Lane.opened, lane, Lane.between]

theorem aside_openMessage : link.AgreesAside ((openMessage side).run link).state := by
  refine ⟨rfl, rfl, fun other queue => ?_⟩
  rw [openMessage, run_atStation]
  rcases Side.self_or_peer side other with rfl | rfl
  · rw [station_withStation_self]
    cases isOpen : (link.station other).messageOpen with
    | true => rw [Station.run_openMessage_of_open isOpen]
    | false =>
      rw [Station.run_openMessage_of_shut isOpen]
      cases queue <;> rfl
  · rw [station_withStation_peer]

theorem lane_openMessage_peer :
    ((openMessage side).run link).state.lane side.peer = link.lane side.peer := by
  rw [openMessage, run_atStation, lane_withStation_peer, lane_peer]
  cases isOpen : (link.station side).messageOpen with
  | true => rw [Station.run_openMessage_of_open isOpen]
  | false => rw [Station.run_openMessage_of_shut isOpen]; rfl

end Opening

section Closing

theorem lane_finish_self :
    ((finish side).run link).state.lane side = (link.lane side).finished := by
  have finished := finished link side
  generalize (finish side).run link = outcome at finished ⊢
  cases finished with
  | shut isShut => simp [Lane.finished, lane, Lane.between, isShut]
  | empty isOpen isEmpty => simp [Lane.finished, lane, Lane.between, isEmpty]
  | waiting isOpen isLoaded waiting =>
    have nonempty : (link.station side).tx.entries ≠ [] := by
      intro nothing
      exact waiting (congrArg List.length nothing)
    simp [Lane.finished, lane, Lane.between, isOpen, isLoaded, nonempty]
  | crossed isOpen isLoaded crossed =>
    have nothing : (link.station side).tx.entries = [] := List.eq_nil_of_length_eq_zero crossed
    simp [Lane.finished, lane, Lane.between, isOpen, isLoaded, nothing]

theorem lane_finish_peer :
    ((finish side).run link).state.lane side.peer = link.lane side.peer := by
  have finished := finished link side
  generalize (finish side).run link = outcome at finished ⊢
  cases finished with
  | shut | empty | waiting | crossed => simp [lane, Lane.between]

theorem aside_finish : link.AgreesAside ((finish side).run link).state := by
  have finished := finished link side
  generalize (finish side).run link = outcome at finished ⊢
  cases finished with
  | shut | empty | waiting | crossed =>
    refine ⟨rfl, rfl, fun other queue => ?_⟩
    rcases Side.self_or_peer side other with rfl | rfl <;> cases queue <;> simp [Station.watermark]

theorem time_finish : ((finish side).run link).state.time = link.time := by
  have finished := finished link side
  generalize (finish side).run link = outcome at finished ⊢
  cases finished with
  | shut | empty | waiting | crossed => rfl

theorem state_closeMessage :
    ((closeMessage side).run link).state = (settle.run ((finish side).run link).state).state := by
  rw [closeMessage_eq, Step.run_bind]

theorem time_closeMessage : ((closeMessage side).run link).state.time = link.time := by
  rw [state_closeMessage, time_settle, time_finish]

theorem aside_closeMessage : link.AgreesAside ((closeMessage side).run link).state := by
  rw [state_closeMessage]
  exact (aside_finish link side).trans (aside_law.settle _)

theorem lane_closeMessage_self :
    ((closeMessage side).run link).state.lane side = (link.lane side).finished.flow link.time := by
  rw [state_closeMessage, lane_settle, lane_finish_self, time_finish]

theorem lane_closeMessage_peer :
    ((closeMessage side).run link).state.lane side.peer = (link.lane side.peer).flow link.time := by
  rw [state_closeMessage, lane_settle, lane_finish_peer, time_finish]

end Closing

section Confirming

/-- The link when a side has confirmed its boundary, before anything is delivered. -/
def withoutBoundary : Link :=
  link.withStation side { link.station side with boundaryPending := false }

theorem state_confirm :
    ((confirm side).run link).state = (settle.run (link.withoutBoundary side)).state := by
  rw [confirm, Step.run_bind, run_atStation]
  cases isPending : (link.station side).boundaryPending with
  | true => rw [Station.run_confirm_of_pending isPending]; rfl
  | false =>
    have same : { link.station side with boundaryPending := false } = link.station side := by
      rw [← isPending]
    rw [Station.run_confirm_of_clear isPending, withoutBoundary, same]

theorem time_confirm : ((confirm side).run link).state.time = link.time := rfl

theorem aside_withoutBoundary : link.AgreesAside (link.withoutBoundary side) := by
  refine ⟨rfl, rfl, fun other queue => ?_⟩
  rcases Side.self_or_peer side other with rfl | rfl <;> cases queue <;>
    simp [withoutBoundary, Station.watermark]

theorem aside_confirm : link.AgreesAside ((confirm side).run link).state := by
  rw [state_confirm]
  exact (aside_withoutBoundary link side).trans (aside_law.settle _)

theorem lane_confirm_self :
    ((confirm side).run link).state.lane side = (link.lane side).flow link.time := by
  rw [state_confirm, lane_settle, withoutBoundary, lane_withStation_self]
  rfl

theorem lane_confirm_peer :
    ((confirm side).run link).state.lane side.peer =
      (link.lane side.peer).confirmed.flow link.time := by
  rw [state_confirm, lane_settle, withoutBoundary, lane_withStation_peer, lane_peer]
  rfl

end Confirming

section Loading

variable {link side} (block : Block)

/-- The link when a side has queued a block, before anything is delivered. -/
def withQueued (link : Link) (side : Side) (block : Block) (room : (link.station side).tx.HasRoom) :
    Link :=
  link.withStation side
    { link.station side with
      tx := (link.station side).tx.push
        { block, final := false, readyAt := link.time.after link.config.linkLatency } room
      messageLoaded := true }

theorem state_load_of_ready (ready : (link.station side).IsReady) :
    ((load side block).run link).state =
      (settle.run (link.withQueued side block ready.2)).state := by
  rw [load_eq, Step.run_bind, run_enqueue_of_ready block ready]
  rfl

theorem time_load_of_ready (ready : (link.station side).IsReady) :
    ((load side block).run link).state.time = link.time := by
  rw [state_load_of_ready block ready]
  rfl

theorem aside_load_of_ready (ready : (link.station side).IsReady) :
    link.AgreesAside ((load side block).run link).state := by
  have queued : link.AgreesAside (link.withQueued side block ready.2) := by
    refine ⟨rfl, rfl, fun other queue => ?_⟩
    rcases Side.self_or_peer side other with rfl | rfl <;> cases queue <;>
      simp [withQueued, Station.watermark]
  rw [state_load_of_ready block ready]
  exact queued.trans (aside_law.settle _)

theorem lane_load_self_of_ready (ready : (link.station side).IsReady) :
    ((load side block).run link).state.lane side =
      ((link.lane side).queued block (link.time.after link.config.linkLatency)).flow link.time := by
  rw [state_load_of_ready block ready, lane_settle, withQueued, lane_withStation_self]
  rfl

theorem lane_load_peer_of_ready (ready : (link.station side).IsReady) :
    ((load side block).run link).state.lane side.peer =
      (link.lane side.peer).flow link.time := by
  rw [state_load_of_ready block ready, lane_settle, withQueued, lane_withStation_peer, lane_peer]
  rfl

end Loading

section Reading

variable {link side} {block : Block}

theorem lane_read_self_of_ok (shown : (link.station side).peek = .ok block) :
    ((read side).run link).state.lane side = (link.lane side).flow link.time := by
  rw [lane_read_of_ok shown, lane_withoutOldest_self]

theorem lane_read_peer_of_ok (shown : (link.station side).peek = .ok block) :
    ((read side).run link).state.lane side.peer =
      (link.lane side.peer).dropOldest.flow link.time := by
  rw [lane_read_of_ok shown, lane_withoutOldest_peer]

end Reading

/-- Whether nothing is left that could cross on either lane. -/
def Settled (link : Link) : Prop := ∀ sender, (link.lane sender).Settled link.time

theorem settled_settle : (settle.run link).state.Settled := by
  intro sender
  rw [lane_settle, time_settle]
  exact Lane.settled_flow _ _

theorem settled_advance (cycles : Time) : ((advance cycles).run link).state.Settled :=
  settled_settle _

theorem settled_charge : (charge.run link).state.Settled := by
  rw [run_charge]
  exact settled_advance _ _

section Watermarks

variable (queue : Queue) (level : UInt64)

theorem lane_setWatermark (sender : Side) :
    ((setWatermark side queue level).run link).state.lane sender = link.lane sender := by
  rw [setWatermark, run_atStation]
  by_cases valid : WatermarkValid level
  · rw [Station.run_setWatermark_of_valid _ queue valid]
    rcases Side.self_or_peer side sender with rfl | rfl
    · rw [lane_withStation_self]
      cases queue <;> rfl
    · rw [lane_withStation_peer, lane_peer]
      cases queue <;> rfl
  · rw [Station.run_setWatermark_of_invalid _ queue valid, withStation_self]

theorem value_setWatermark :
    ((setWatermark side queue level).run link).value =
      if WatermarkValid level then .ok () else .error .invalidArgument := by
  rw [setWatermark, run_atStation]
  by_cases valid : WatermarkValid level
  · rw [Station.run_setWatermark_of_valid _ queue valid, if_pos valid]
  · rw [Station.run_setWatermark_of_invalid _ queue valid, if_neg valid]

end Watermarks

theorem value_load (block : Block) :
    ((load side block).run link).value =
      if (link.lane side).IsReady then .ok () else .error .unavailable := by
  by_cases ready : (link.station side).IsReady
  · exact (value_load_of_ready block ready).trans (if_pos ready).symm
  · rw [run_load_of_unready block ready]
    exact (if_neg ready).symm

theorem settled_idle (config : Config) (time : Time) : (Link.idle config time).Settled := by
  intro sender
  rw [lane_idle]
  intro entry rest shape
  cases shape

/-- Nothing that could cross is ever left behind, whatever is done. -/
theorem settled_law : Conduct fun first _ last => first.Settled → last.Settled where
  conductBy side :=
    { rest := fun _ settled => settled
      next := fun first second settled => second (first settled)
      charge := fun link _ => settled_charge link
      remark := fun _ _ _ settled => settled
      setWatermark := fun queue level link settled sender => by
        rw [lane_setWatermark]
        exact settled sender
      openMessage := fun link settled sender => by
        rcases Side.self_or_peer side sender with rfl | rfl
        · rw [lane_openMessage_self]
          exact (settled sender).opened
        · rw [lane_openMessage_peer]
          exact settled side.peer
      closeMessage := fun link _ => by
        rw [state_closeMessage]
        exact settled_settle _
      confirm := fun link _ => by
        rw [state_confirm]
        exact settled_settle _
      stage := fun _ _ _ settled => settled
      load := fun block link settled => by
        by_cases ready : (link.station side).IsReady
        · rw [state_load_of_ready block ready]
          exact settled_settle _
        · rw [run_load_of_unready block ready]
          exact settled
      read := fun link settled => by
        cases shown : (link.station side).peek with
        | ok block =>
          rw [state_read_of_ok shown]
          exact settled_settle _
        | error refusal =>
          rw [run_read_of_error shown]
          exact settled }
  advance cycles link _ := settled_advance link cycles
  reset link settled := by
    by_cases accepted : link.config.Accepted
    · rw [run_reset_of_accepted accepted]
      exact settled_idle link.config link.time
    · rw [run_reset_of_rejected accepted]
      exact settled

/-- What a call to the model does once its access is charged. -/
def effect (side : Side) : Command → Step Event Link Reply
  | .setWatermark queue level => Reply.ofUnit <$> setWatermark side queue level
  | .openMessage => do openMessage side; return .done
  | .closeMessage => do closeMessage side; return .done
  | .confirm => do confirm side; return .done
  | .load block => Reply.ofUnit <$> load side block
  | .read => Reply.ofBlock <$> read side
  | .status => Step.observe fun link => .status (link.status side)
  | .now | .waitFor _ => return .done

theorem run_directCall {command : Command} (isAccess : command.IsAccess) :
    (call .direct side command).run link =
      let charged := charge.run link
      let done := (effect side command).run charged.state
      ⟨.ok done.value, done.state, charged.events ++ done.events⟩ := by
  cases command with
  | setWatermark | load | read =>
    simp [call, Endpoint.perform, Endpoint.setWatermark, Endpoint.load, Endpoint.read, effect]
  | openMessage | closeMessage | confirm =>
    simp [call, Endpoint.perform, Endpoint.openMessage, Endpoint.closeMessage, Endpoint.confirm,
      effect]
  | status => simp [call, Endpoint.perform, Endpoint.status, effect]
  | now | waitFor => exact absurd isAccess id

section Effects

variable (command : Command)

theorem time_effect : ((effect side command).run link).state.time = link.time := by
  cases command with
  | setWatermark | openMessage | confirm | status | now | waitFor => rfl
  | closeMessage => exact time_closeMessage link side
  | load block =>
    by_cases ready : (link.station side).IsReady
    · exact time_load_of_ready block ready
    · rw [effect, Step.run_map, run_load_of_unready block ready]
  | read =>
    cases shown : (link.station side).peek with
    | ok block => exact time_read_of_ok shown
    | error refusal => rw [effect, Step.run_map, run_read_of_error shown]

/-- No call but one that sets a watermark changes more than lanes. -/
theorem aside_effect {command : Command}
    (notSet : ∀ queue level, command ≠ .setWatermark queue level) :
    link.AgreesAside ((effect side command).run link).state := by
  cases command with
  | setWatermark queue level => exact absurd rfl (notSet queue level)
  | openMessage => exact aside_openMessage link side
  | closeMessage => exact aside_closeMessage link side
  | confirm => exact aside_confirm link side
  | load block =>
    by_cases ready : (link.station side).IsReady
    · exact aside_load_of_ready block ready
    · rw [effect, Step.run_map, run_load_of_unready block ready]
      exact .refl link
  | read =>
    cases shown : (link.station side).peek with
    | ok block => exact aside_read_of_ok shown
    | error refusal =>
      rw [effect, Step.run_map, run_read_of_error shown]
      exact .refl link
  | status | now | waitFor => exact .refl link

theorem config_effect : ((effect side command).run link).state.config = link.config := by
  cases command with
  | setWatermark => rfl
  | openMessage | closeMessage | confirm | load | read | status | now | waitFor =>
    exact (aside_effect link side (by simp)).config

theorem staged_effect : ((effect side command).run link).state.staged = link.staged := by
  cases command with
  | setWatermark => rfl
  | openMessage | closeMessage | confirm | load | read | status | now | waitFor =>
    exact (aside_effect link side (by simp)).staged

/-- What the watermarks are after a call depends on what they were and on nothing else. -/
theorem watermark_effect {first second : Link}
    (same : ∀ other queue,
      (second.station other).watermark queue = (first.station other).watermark queue)
    (other : Side) (queue : Queue) :
    (((effect side command).run second).state.station other).watermark queue =
      (((effect side command).run first).state.station other).watermark queue := by
  cases command with
  | setWatermark changed level =>
    rw [effect, Step.run_map, Step.run_map, setWatermark, run_atStation, run_atStation]
    by_cases valid : WatermarkValid level
    · rw [Station.run_setWatermark_of_valid _ changed valid,
        Station.run_setWatermark_of_valid _ changed valid]
      rcases Side.self_or_peer side other with rfl | rfl
      · rw [station_withStation_self, station_withStation_self]
        have transmit := same other .transmit
        have receive := same other .receive
        cases changed <;> cases queue <;> first | rfl | assumption
      · rw [station_withStation_peer, station_withStation_peer, same]
    · rw [Station.run_setWatermark_of_invalid _ changed valid,
        Station.run_setWatermark_of_invalid _ changed valid, withStation_self, withStation_self,
        same]
  | openMessage | closeMessage | confirm | load | read | status | now | waitFor =>
    rw [(aside_effect second side (by simp)).watermark,
      (aside_effect first side (by simp)).watermark, same]

variable {link}

theorem lane_effect_self (settled : link.Settled) :
    ((effect side command).run link).state.lane side =
      (link.lane side).send link.time (link.time.after link.config.linkLatency) command := by
  have still := Lane.flow_of_settled (settled side)
  cases command with
  | setWatermark queue level => exact lane_setWatermark link side queue level side
  | openMessage => exact lane_openMessage_self link side
  | closeMessage => exact lane_closeMessage_self link side
  | confirm => exact (lane_confirm_self link side).trans still
  | load block =>
    by_cases ready : (link.station side).IsReady
    · exact (lane_load_self_of_ready block ready).trans (if_pos ready).symm
    · rw [effect, Step.run_map, run_load_of_unready block ready]
      exact (if_neg ready).symm
  | read =>
    cases shown : (link.station side).peek with
    | ok block => exact (lane_read_self_of_ok shown).trans still
    | error refusal =>
      rw [effect, Step.run_map, run_read_of_error shown]
      rfl
  | status | now | waitFor => rfl

theorem lane_effect_peer (settled : link.Settled) :
    ((effect side command).run link).state.lane side.peer =
      (link.lane side.peer).receive link.time command := by
  have still := Lane.flow_of_settled (settled side.peer)
  cases command with
  | setWatermark queue level => exact lane_setWatermark link side queue level side.peer
  | openMessage => exact lane_openMessage_peer link side
  | closeMessage => exact (lane_closeMessage_peer link side).trans still
  | confirm => exact lane_confirm_peer link side
  | load block =>
    by_cases ready : (link.station side).IsReady
    · exact (lane_load_peer_of_ready block ready).trans still
    · rw [effect, Step.run_map, run_load_of_unready block ready]
      rfl
  | read =>
    have same := peek_eq_lane link side
    cases shown : (link.station side).peek with
    | ok block =>
      rw [shown] at same
      rw [Lane.receive, ← same]
      exact lane_read_peer_of_ok shown
    | error refusal =>
      rw [shown] at same
      rw [Lane.receive, ← same, effect, Step.run_map, run_read_of_error shown]
  | status | now | waitFor => rfl

/-- What a call does to a lane, be it its caller's to send on or to receive on. -/
theorem lane_effect (settled : link.Settled) (sender : Side) :
    ((effect side command).run link).state.lane sender =
      if side = sender then
        (link.lane sender).send link.time (link.time.after link.config.linkLatency) command
      else (link.lane sender).receive link.time command := by
  rcases Side.self_or_peer side sender with rfl | rfl
  · rw [if_pos rfl]
    exact lane_effect_self sender command settled
  · rw [if_neg (Side.ne_peer side)]
    exact lane_effect_peer side command settled

end Effects

theorem lane_advance (cycles : Time) (sender : Side) :
    ((advance cycles).run link).state.lane sender =
      (link.lane sender).flow (link.time.after cycles) :=
  lane_settle { link with time := link.time.after cycles } sender

end Link

end BlockLink
