import BlockLink.Proofs.Effect

/-!
What a side cannot change on a lane.

As long as a sender does not end its message, it leaves all that has arrived for the
receiver to read. When it does end it, the oldest block stays readable, unless it is
all that is left of the message: then it is held back until its boundary is confirmed.
A receiver in turn leaves the message of the sender open and takes no room from it.
-/

namespace BlockLink

namespace Lane

variable {lane : Lane} {head : Entry}

/-- Whether an entry is the oldest that has arrived and may be read. -/
def Offers (head : Entry) (lane : Lane) : Prop :=
  ∃ rest, lane.arrived = head :: rest ∧ (rest ≠ [] → head.final = false) ∧
    ¬ (head.final = true ∧ lane.isPending = true)

/-- Whether an entry is all that has arrived and is held back as the end of its message. -/
structure HoldsBack (head : Entry) (lane : Lane) : Prop where
  arrived : lane.arrived = [{ head with final := true }]
  isPending : lane.isPending = true

theorem Offers.peek_eq (offers : lane.Offers head) : lane.peek = .ok head.block := by
  obtain ⟨rest, arrived, -, readable⟩ := offers
  rw [peek, arrived]
  exact if_neg (by simpa using readable)

theorem HoldsBack.peek_eq (holdsBack : lane.HoldsBack head) : lane.peek = .error .blocked := by
  rw [peek, holdsBack.arrived, holdsBack.isPending]
  rfl

/-- What a sender cannot change as long as it does not end its message. -/
structure Lasting (holds : Lane → Prop) : Prop where
  flow {lane : Lane} (now : Time) : holds lane → holds (lane.flow now)
  opened {lane : Lane} : holds lane → holds lane.opened
  queued {lane : Lane} (block : Block) (readyAt : Time) :
    holds lane → holds (lane.queued block readyAt)

/-- What holds of the receiver alone lasts if it outlasts the arrival of an entry. -/
theorem Lasting.of_accept {holds : Lane → Prop}
    (same : ∀ first second : Lane, second.arrived = first.arrived →
      second.isPending = first.isPending → holds first → holds second)
    (accept : ∀ (lane : Lane) (entry : Entry), lane.CanAccept →
      holds lane → holds (lane.accept entry)) : Lasting holds where
  flow {lane} now held := by
    apply holds_flowOf _ _ _ lane.waiting held
    · intro lane entries held
      exact same lane _ rfl rfl held
    · intro lane entry _ able held
      exact accept lane entry able held
  opened {lane} held := by
    unfold Lane.opened
    split
    · exact held
    · exact same lane _ rfl rfl held
  queued {lane} _ _ held := same lane _ rfl rfl held

theorem lasting_offers (head : Entry) : Lasting (Offers head) := by
  apply Lasting.of_accept
  · intro first second arrived isPending offers
    rw [Offers, arrived, isPending]
    exact offers
  · rintro lane entry ⟨-, -, noFinal⟩ ⟨rest, arrived, -, -⟩
    have plain : head.final = false :=
      Bool.eq_false_iff.mpr fun final => noFinal ⟨head, by simp [arrived], final⟩
    exact ⟨rest ++ [entry], by simp [accept, arrived], fun _ => plain, by simp [plain]⟩

theorem lasting_holdsBack (head : Entry) : Lasting (HoldsBack head) := by
  apply Lasting.of_accept
  · intro first second arrived isPending holdsBack
    exact ⟨arrived.trans holdsBack.arrived, isPending.trans holdsBack.isPending⟩
  · rintro lane entry ⟨-, isClear, -⟩ ⟨-, isPending⟩
    rw [isPending] at isClear
    cases isClear

/-- When a sender ends its message, the oldest block stays readable, unless it is all that is
left of the message. -/
theorem Offers.finished (offers : lane.Offers head) :
    lane.finished.Offers head ∨
      lane.isOpen = true ∧ lane.isLoaded = true ∧ lane.waiting = [] ∧ lane.arrived = [head] ∧
        lane.finished.HoldsBack head := by
  obtain ⟨rest, arrived, plain, readable⟩ := offers
  by_cases hasBlocks : (lane.isOpen && lane.isLoaded) = true
  · by_cases sentAll : lane.waiting = []
    · have finished : lane.finished =
          { lane with
            arrived := Fifo.markLast lane.arrived
            isOpen := false
            isLoaded := false
            isPending := true } := by
        rw [Lane.finished, if_pos hasBlocks, if_pos sentAll]
      rw [finished]
      cases rest with
      | nil =>
        obtain ⟨isOpen, isLoaded⟩ := Bool.and_eq_true_iff.mp hasBlocks
        have marked : Fifo.markLast lane.arrived = [{ head with final := true }] := by
          rw [arrived]
          rfl
        exact .inr ⟨isOpen, isLoaded, sentAll, arrived, marked, rfl⟩
      | cons next rest =>
        have isPlain : head.final = false := plain (List.cons_ne_nil next rest)
        refine .inl ⟨Fifo.markLast (next :: rest), ?_, fun _ => isPlain, by simp [isPlain]⟩
        rw [arrived]
        rfl
    · left
      rw [Lane.finished, if_pos hasBlocks, if_neg sentAll]
      exact ⟨rest, arrived, plain, readable⟩
  · left
    rw [Lane.finished, if_neg hasBlocks]
    exact ⟨rest, arrived, plain, readable⟩

theorem HoldsBack.finished (holdsBack : lane.HoldsBack head) : lane.finished.HoldsBack head := by
  unfold Lane.finished
  split
  · split
    · refine ⟨?_, rfl⟩
      dsimp only
      rw [holdsBack.arrived]
      rfl
    · exact ⟨holdsBack.arrived, holdsBack.isPending⟩
  · exact ⟨holdsBack.arrived, holdsBack.isPending⟩

namespace Lasting

variable {holds : Lane → Prop} (lasting : Lasting holds) (side : Side)
include lasting

theorem ticking :
    Link.Ticking fun link _ last => holds (link.lane side) → holds (last.lane side) where
  rest _ := id
  next first second := second ∘ first
  charge link held := by
    rw [Link.lane_charge]
    exact lasting.flow _ held
  remark _ _ _ := id

theorem loadingBy :
    Link.LoadingBy side fun link _ last => holds (link.lane side) → holds (last.lane side) where
  toTicking := lasting.ticking side
  stage _ _ _ := id
  load block link held := by
    by_cases ready : (link.station side).IsReady
    · rw [Link.lane_load_self_of_ready block ready]
      exact lasting.flow _ (lasting.queued _ _ held)
    · rw [Link.run_load_of_unready block ready]
      exact held

theorem readingBy :
    Link.ReadingBy side fun link _ last => holds (link.lane side) → holds (last.lane side) where
  toTicking := lasting.ticking side
  read link held := by
    cases shown : (link.station side).peek with
    | ok block =>
      rw [Link.lane_read_self_of_ok shown]
      exact lasting.flow _ held
    | error refusal =>
      rw [Link.run_read_of_error shown]
      exact held

theorem openMessage :
    (Link.openMessage side).Within fun link _ last =>
      holds (link.lane side) → holds (last.lane side) := by
  intro link held
  rw [Link.lane_openMessage_self]
  exact lasting.opened held

theorem confirm :
    (Link.confirm side).Within fun link _ last =>
      holds (link.lane side) → holds (last.lane side) := by
  intro link held
  rw [Link.lane_confirm_self]
  exact lasting.flow _ held

/-- What also outlasts the end of a message is not for its sender to change. -/
theorem conductBy (finished : ∀ {lane : Lane}, holds lane → holds lane.finished) :
    Link.ConductBy side fun link _ last => holds (link.lane side) → holds (last.lane side) where
  toTicking := lasting.ticking side
  setWatermark queue level link held := by
    rw [Link.lane_setWatermark]
    exact held
  openMessage := lasting.openMessage side
  closeMessage link held := by
    rw [Link.lane_closeMessage_self]
    exact lasting.flow _ (finished held)
  confirm := lasting.confirm side
  stage := (lasting.loadingBy side).stage
  load := (lasting.loadingBy side).load
  read := (lasting.readingBy side).read

end Lasting

/-- What a receiver cannot change. -/
structure Reserved (holds : Lane → Prop) : Prop where
  flow {lane : Lane} (now : Time) : holds lane → holds (lane.flow now)
  confirmed {lane : Lane} : holds lane → holds lane.confirmed
  dropOldest {lane : Lane} : holds lane → holds lane.dropOldest

section Receiving

variable {holds : Lane → Prop} (side : Side)
  (flow : ∀ {lane : Lane} (now : Time), holds lane → holds (lane.flow now))
include flow

/-- Short of confirming and reading, a receiver does no more to a lane than a delivery does. -/
theorem tendingBy_of_flow :
    Link.TendingBy side fun link _ last =>
      holds (link.lane side.peer) → holds (last.lane side.peer) where
  rest _ := id
  next first second := second ∘ first
  charge link held := by
    rw [Link.lane_charge]
    exact flow _ held
  remark _ _ _ := id
  setWatermark queue level link held := by
    rw [Link.lane_setWatermark]
    exact held
  openMessage link held := by
    rw [Link.lane_openMessage_peer]
    exact held
  closeMessage link held := by
    rw [Link.lane_closeMessage_peer]
    exact flow _ held

theorem loadingBy_of_flow :
    Link.LoadingBy side fun link _ last =>
      holds (link.lane side.peer) → holds (last.lane side.peer) where
  toTicking := (tendingBy_of_flow side flow).toTicking
  stage _ _ _ := id
  load block link held := by
    by_cases ready : (link.station side).IsReady
    · rw [Link.lane_load_peer_of_ready block ready]
      exact flow _ held
    · rw [Link.run_load_of_unready block ready]
      exact held

end Receiving

theorem Reserved.conductBy {holds : Lane → Prop} (reserved : Reserved holds) (side : Side) :
    Link.ConductBy side fun link _ last =>
      holds (link.lane side.peer) → holds (last.lane side.peer) where
  toTendingBy := tendingBy_of_flow side reserved.flow
  stage := (loadingBy_of_flow side reserved.flow).stage
  load := (loadingBy_of_flow side reserved.flow).load
  confirm link held := by
    rw [Link.lane_confirm_peer]
    exact reserved.flow _ (reserved.confirmed held)
  read link held := by
    cases shown : (link.station side).peek with
    | ok block =>
      rw [Link.lane_read_peer_of_ok shown]
      exact reserved.flow _ (reserved.dropOldest held)
    | error refusal =>
      rw [Link.run_read_of_error shown]
      exact held

theorem IsReady.flowOf {now : Time} {entries : List Entry} (isOpen : lane.isOpen = true)
    (room : entries.length < Fifo.depth) : (Lane.flowOf now entries lane).IsReady := by
  induction entries generalizing lane with
  | nil => exact ⟨isOpen, room⟩
  | cons entry rest inductionHypothesis =>
    by_cases able : entry.readyAt ≤ now ∧ lane.CanAccept
    · rw [flowOf_of_able able]
      exact inductionHypothesis isOpen (Nat.lt_of_succ_lt room)
    · rw [flowOf_of_unable able]
      exact ⟨isOpen, room⟩

theorem reserved_isReady : Reserved IsReady where
  flow _ ready := IsReady.flowOf ready.1 ready.2
  confirmed := id
  dropOldest {lane} ready := by
    unfold Lane.dropOldest
    split <;> exact ready

end Lane

namespace Link

theorem lane_writeWatermark (link : Link) (side : Side) (queue : Queue) (word : UInt32)
    (sender : Side) :
    ((writeWatermark side queue word).run link).state.lane sender = link.lane sender := by
  have kept := lane_setWatermark link side queue
    (UInt64.ofNat ((ControlWord.watermark queue).get word)) sender
  rw [writeWatermark, Step.run_bind]
  cases ((setWatermark side queue (UInt64.ofNat ((ControlWord.watermark queue).get word))).run
    link).value with
  | ok => exact kept
  | error refusal => exact kept

/-- What a side stages is not for its peer to change. -/
theorem staged_law (side : Side) : ConductBy side fun link _ last =>
    last.staged.get side.peer = link.staged.get side.peer where
  rest _ := rfl
  next first second := second.trans first
  charge link := congrArg (PerSide.get · side.peer) (aside_law.charge link).staged
  remark _ _ _ := rfl
  setWatermark queue level link :=
    congrArg (PerSide.get · side.peer) (staged_effect link side (.setWatermark queue level))
  openMessage link := congrArg (PerSide.get · side.peer) (staged_effect link side .openMessage)
  closeMessage link := congrArg (PerSide.get · side.peer) (staged_effect link side .closeMessage)
  confirm link := congrArg (PerSide.get · side.peer) (staged_effect link side .confirm)
  stage _ _ _ := PerSide.get_set_peer ..
  load block link := congrArg (PerSide.get · side.peer) (staged_effect link side (.load block))
  read link := congrArg (PerSide.get · side.peer) (staged_effect link side .read)

section Peeking

variable {link : Link} {side : Side} {head : Entry}

theorem offers_of_peek {block : Block} (framed : (link.station side).Framed)
    (shown : (link.station side).peek = .ok block) :
    ∃ head rest, (link.station side).rx.entries = head :: rest ∧
      (link.lane side.peer).Offers head := by
  obtain ⟨head, rest, shape, -, readable⟩ := (Station.peek_eq_ok_iff _).mp shown
  rw [lane_peer]
  refine ⟨head, rest, shape, rest, shape, ?_, readable⟩
  intro notAlone
  apply framed.single
  rw [shape, List.dropLast_cons_of_ne_nil notAlone]
  exact List.mem_cons_self ..

theorem peek_of_offers (offers : (link.lane side.peer).Offers head) :
    (link.station side).peek = .ok head.block := by
  rw [peek_eq_lane]
  exact offers.peek_eq

theorem offers_charge (offers : (link.lane side.peer).Offers head) :
    ((charge.run link).state.lane side.peer).Offers head :=
  ((Lane.lasting_offers head).ticking side.peer).charge link offers

theorem peek_of_holdsBack (held : (link.lane side.peer).HoldsBack head) :
    (link.station side).peek = .error .blocked := by
  rw [peek_eq_lane]
  exact held.peek_eq

theorem holdsBack_charge (held : (link.lane side.peer).HoldsBack head) :
    ((charge.run link).state.lane side.peer).HoldsBack head :=
  ((Lane.lasting_holdsBack head).ticking side.peer).charge link held

end Peeking

/-- What lasts on the lane of a sender outlasts a control write, if it outlasts the end of the
message that the write may ask for. -/
theorem lasting_writeControl {holds : Lane → Prop} (lasting : Lane.Lasting holds) (link : Link)
    (side : Side) (word : UInt32)
    (ended : ControlWord.txEnd.isSet word = true →
      holds ((charge.run link).state.lane side).finished)
    (running : ControlWord.txEnd.isSet word = false →
      holds ((charge.run link).state.lane side)) :
    holds (((writeControl side word).run link).state.lane side) := by
  have transmit := lane_writeWatermark (charge.run link).state side .transmit word side
  generalize levelled : ((writeWatermark side .transmit word).run (charge.run link).state).state =
    first at transmit
  have receive := lane_writeWatermark first side .receive word side
  generalize set : ((writeWatermark side .receive word).run first).state = second at receive
  have charged : second.lane side = (charge.run link).state.lane side := receive.trans transmit
  have closes : holds (((pulse ControlWord.txEnd word (closeMessage side)).run second).state.lane
      side) := by
    unfold pulse
    cases isSet : ControlWord.txEnd.isSet word with
    | true =>
      rw [if_pos rfl, lane_closeMessage_self, charged]
      exact lasting.flow _ (ended isSet)
    | false =>
      rw [if_neg Bool.false_ne_true, Step.run_skip, charged]
      exact running isSet
  have opens := within_pulse (lasting.ticking side).toChains ControlWord.txTrigger word
    (lasting.openMessage side)
  have confirms := within_pulse (lasting.ticking side).toChains ControlWord.rxConfirm word
    (lasting.confirm side)
  rw [writeControl_eq]
  simp only [Step.run_bind, levelled, set, pulses]
  exact confirms _ (opens _ closes)

end Link

end BlockLink
