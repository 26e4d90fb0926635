import BlockLink.Proofs.Law

/-!
What each change of a link does, case by case: its answer, the link afterwards
and the events. Later proofs use these equations and open no definition of a step.
-/

namespace BlockLink

theorem Side.self_or_peer (side other : Side) : other = side ∨ other = side.peer := by
  cases side <;> cases other <;> simp [Side.peer]

@[simp]
theorem Side.ne_peer (side : Side) : side ≠ side.peer :=
  (Side.peer_ne side).symm

/-- Marking the last entry commutes with every change of entries that has no regard for marks. -/
theorem Fifo.map_markLast {change : Entry → Entry}
    (marks : ∀ entry, change { entry with final := true } = { change entry with final := true })
    (entries : List Entry) : (markLast entries).map change = markLast (entries.map change) := by
  fun_induction markLast entries with
  | case1 => rfl
  | case2 entry => exact congrArg List.singleton (marks entry)
  | case3 entry next rest inductionHypothesis =>
    rw [List.map_cons, inductionHypothesis]
    rfl

namespace Station

variable (station : Station)

theorem run_setWatermark_of_valid (queue : Queue) {level : UInt64} (valid : WatermarkValid level) :
    (setWatermark queue level).run station =
      ⟨.ok (), station.withWatermark queue level, []⟩ :=
  if_pos valid

theorem run_setWatermark_of_invalid (queue : Queue) {level : UInt64}
    (invalid : ¬ WatermarkValid level) :
    (setWatermark queue level).run station = ⟨.error .invalidArgument, station, []⟩ :=
  if_neg invalid

theorem run_openMessage_of_open {station : Station} (isOpen : station.messageOpen = true) :
    openMessage.run station = ⟨(), station, []⟩ :=
  if_pos isOpen

theorem run_openMessage_of_shut {station : Station} (isShut : station.messageOpen = false) :
    openMessage.run station =
      ⟨(), { station with messageOpen := true, messageLoaded := false }, [.messageOpened]⟩ :=
  if_neg (by simp [isShut])

theorem run_closeMessage :
    closeMessage.run station =
      ⟨station.messageOpen && station.messageLoaded,
        { station with messageOpen := false, messageLoaded := false },
        if station.messageOpen then [.messageClosed] else []⟩ :=
  rfl

theorem run_confirm_of_pending {station : Station} (pending : station.boundaryPending = true) :
    confirm.run station =
      ⟨(), { station with boundaryPending := false }, [.boundaryConfirmed]⟩ :=
  if_pos pending

theorem run_confirm_of_clear {station : Station} (clear : station.boundaryPending = false) :
    confirm.run station = ⟨(), station, []⟩ :=
  if_neg (by simp [clear])

theorem run_load_of_ready {station : Station} (block : Block) (readyAt : Time)
    (ready : station.messageOpen = true ∧ station.tx.HasRoom) :
    (load block readyAt).run station =
      ⟨.ok (),
        { station with
          tx := station.tx.push { block, final := false, readyAt } ready.2
          messageLoaded := true },
        []⟩ :=
  dif_pos ready

theorem run_load_of_unready {station : Station} (block : Block) (readyAt : Time)
    (unready : ¬ (station.messageOpen = true ∧ station.tx.HasRoom)) :
    (load block readyAt).run station = ⟨.error .unavailable, station, []⟩ :=
  dif_neg unready

theorem run_read_of_ok {station : Station} {block : Block} (shown : station.peek = .ok block) :
    read.run station = ⟨.ok block, station.dropOldestRx, []⟩ := by
  simp [Step.run, read, shown]

theorem run_read_of_error {station : Station} {refusal : Refusal}
    (shown : station.peek = .error refusal) :
    read.run station = ⟨.error refusal, station, []⟩ := by
  simp [Step.run, read, shown]

/-- A block can be read if there is one and it does not end a message whose boundary is
pending. -/
theorem peek_eq_ok_iff {block : Block} :
    station.peek = .ok block ↔ ∃ entry rest, station.rx.entries = entry :: rest ∧
      entry.block = block ∧ ¬ (entry.final = true ∧ station.boundaryPending = true) := by
  unfold peek Fifo.oldest?
  cases station.rx.entries with
  | nil => simp
  | cons entry rest =>
    by_cases held : entry.final = true ∧ station.boundaryPending = true
    · simp [held]
    · have free : (entry.final && station.boundaryPending) = false := by simpa using held
      simp only [List.head?_cons, free, Bool.false_eq_true, if_false, Except.ok.injEq]
      constructor
      · intro same
        exact ⟨entry, rest, rfl, same, held⟩
      · rintro ⟨_, _, shape, same, _⟩
        cases shape
        exact same

/-- Taking entries in changes the receive FIFO and the pending boundary only. -/
theorem intake_kept (now : Time) (entries : List Entry) (target : Station) :
    (intake now entries target).2 =
      { target with
        rx := (intake now entries target).2.rx
        boundaryPending := (intake now entries target).2.boundaryPending } := by
  induction entries generalizing target with
  | nil => rfl
  | cons entry rest inductionHypothesis =>
    by_cases able : entry.readyAt ≤ now ∧ target.CanAccept
    · simp only [intake, able, dif_pos, and_self]
      rw [inductionHypothesis]
      rfl
    · simp only [intake, able, dif_neg, not_false_eq_true]

end Station

namespace Link

variable (link : Link) (side : Side)

theorem withStation_self : link.withStation side (link.station side) = link := by
  cases side <;> rfl

theorem withStation_withStation (first second : Station) :
    (link.withStation side first).withStation side second = link.withStation side second := by
  cases side <;> rfl

@[simp]
theorem station_withStation_self (station : Station) :
    (link.withStation side station).station side = station :=
  PerSide.get_set_self ..

@[simp]
theorem station_withStation_peer (station : Station) :
    (link.withStation side station).station side.peer = link.station side.peer :=
  PerSide.get_set_peer ..

@[simp]
theorem station_withStation_of_peer (station : Station) :
    (link.withStation side.peer station).station side = link.station side :=
  PerSide.get_peer_set ..

theorem run_atStation {α : Type} (step : Step Station.Event Station α) :
    (atStation side step).run link =
      ⟨(step.run (link.station side)).value,
        link.withStation side (step.run (link.station side)).state,
        (step.run (link.station side)).events.map (.station side)⟩ :=
  rfl

theorem run_enqueue_of_ready {link : Link} {side : Side} (block : Block)
    (ready : (link.station side).messageOpen = true ∧ (link.station side).tx.HasRoom) :
    (enqueue side block).run link =
      ⟨.ok (),
        link.withStation side
          { link.station side with
            tx := (link.station side).tx.push
              { block, final := false, readyAt := link.time.after link.config.linkLatency } ready.2
            messageLoaded := true },
        [.loaded side block]⟩ := by
  simp [enqueue, run_atStation, Station.run_load_of_ready block _ ready]

theorem run_enqueue_of_unready {link : Link} {side : Side} (block : Block)
    (unready : ¬ ((link.station side).messageOpen = true ∧ (link.station side).tx.HasRoom)) :
    (enqueue side block).run link = ⟨.error .unavailable, link, []⟩ := by
  simp [enqueue, run_atStation, Station.run_load_of_unready block _ unready, withStation_self]

theorem run_dequeue_of_ok {link : Link} {side : Side} {block : Block}
    (shown : (link.station side).peek = .ok block) :
    (dequeue side).run link =
      ⟨.ok block, link.withStation side (link.station side).dropOldestRx, [.read side block]⟩ := by
  simp [dequeue, run_atStation, Station.run_read_of_ok shown]

theorem run_dequeue_of_error {link : Link} {side : Side} {refusal : Refusal}
    (shown : (link.station side).peek = .error refusal) :
    (dequeue side).run link = ⟨.error refusal, link, []⟩ := by
  simp [dequeue, run_atStation, Station.run_read_of_error shown, withStation_self]

theorem run_closeMessage_of_loaded {link : Link} {side : Side}
    (isOpen : (link.station side).messageOpen = true)
    (isLoaded : (link.station side).messageLoaded = true) :
    (atStation side Station.closeMessage).run link =
      ⟨true, link.withStation side
          { link.station side with messageOpen := false, messageLoaded := false },
        [.station side .messageClosed]⟩ := by
  simp [run_atStation, Station.run_closeMessage, isOpen, isLoaded]

theorem run_finish_of_empty {link : Link} {side : Side}
    (noBlocks : ((link.station side).messageOpen && (link.station side).messageLoaded) = false) :
    (finish side).run link =
      ⟨(), link.withStation side
          { link.station side with messageOpen := false, messageLoaded := false },
        if (link.station side).messageOpen then [.station side .messageClosed] else []⟩ := by
  simp only [finish, Step.run_bind, run_atStation, Station.run_closeMessage, noBlocks]
  cases (link.station side).messageOpen <;> rfl

theorem run_placeBoundary_of_waiting {link : Link} {side : Side}
    (waiting : (link.station side).tx.size ≠ 0) :
    (placeBoundary side).run link =
      ⟨(), link.withStation side (link.station side).markNewestTx, []⟩ :=
  if_neg waiting

theorem run_placeBoundary_of_crossed {link : Link} {side : Side}
    (crossed : (link.station side).tx.size = 0) :
    (placeBoundary side).run link = (atStation side.peer Station.markBoundary).run link :=
  if_pos crossed

theorem run_markBoundary (station : Station) :
    Station.markBoundary.run station =
      ⟨(), { station with rx := station.rx.markNewest, boundaryPending := true },
        [.boundaryMarked station.rx.size]⟩ :=
  rfl

theorem run_finish_of_waiting {link : Link} {side : Side}
    (isOpen : (link.station side).messageOpen = true)
    (isLoaded : (link.station side).messageLoaded = true)
    (waiting : (link.station side).tx.size ≠ 0) :
    (finish side).run link =
      ⟨(), link.withStation side
          { link.station side with
            tx := (link.station side).tx.markNewest
            messageOpen := false
            messageLoaded := false },
        [.station side .messageClosed]⟩ := by
  rw [finish, Step.run_bind, run_closeMessage_of_loaded isOpen isLoaded]
  simp [run_placeBoundary_of_waiting, waiting, withStation_withStation, Station.markNewestTx]

theorem run_finish_of_crossed {link : Link} {side : Side}
    (isOpen : (link.station side).messageOpen = true)
    (isLoaded : (link.station side).messageLoaded = true)
    (crossed : (link.station side).tx.size = 0) :
    (finish side).run link =
      ⟨(), (link.withStation side
          { link.station side with messageOpen := false, messageLoaded := false }).withStation
          side.peer
          { link.station side.peer with
            rx := (link.station side.peer).rx.markNewest
            boundaryPending := true },
        [.station side .messageClosed,
          .station side.peer (.boundaryMarked (link.station side.peer).rx.size)]⟩ := by
  rw [finish, Step.run_bind, run_closeMessage_of_loaded isOpen isLoaded]
  simp [run_placeBoundary_of_crossed, crossed, run_atStation, run_markBoundary]

/-- What finishing the message of a side can do. -/
inductive Finished (link : Link) (side : Side) : Outcome Event Link Unit → Prop where
  | shut :
      (link.station side).messageOpen = false →
      Finished link side
        ⟨(), link.withStation side
            { link.station side with messageOpen := false, messageLoaded := false }, []⟩
  | empty :
      (link.station side).messageOpen = true → (link.station side).messageLoaded = false →
      Finished link side
        ⟨(), link.withStation side
            { link.station side with messageOpen := false, messageLoaded := false },
          [.station side .messageClosed]⟩
  /-- The final block still waits for transmission. -/
  | waiting :
      (link.station side).messageOpen = true → (link.station side).messageLoaded = true →
      (link.station side).tx.size ≠ 0 →
      Finished link side
        ⟨(), link.withStation side
            { link.station side with
              tx := (link.station side).tx.markNewest
              messageOpen := false
              messageLoaded := false },
          [.station side .messageClosed]⟩
  /-- The final block has crossed, so the boundary is placed at the peer. -/
  | crossed :
      (link.station side).messageOpen = true → (link.station side).messageLoaded = true →
      (link.station side).tx.size = 0 →
      Finished link side
        ⟨(), (link.withStation side
            { link.station side with messageOpen := false, messageLoaded := false }).withStation
            side.peer
            { link.station side.peer with
              rx := (link.station side.peer).rx.markNewest
              boundaryPending := true },
          [.station side .messageClosed,
            .station side.peer (.boundaryMarked (link.station side.peer).rx.size)]⟩

theorem finished : Finished link side ((finish side).run link) := by
  cases isOpen : (link.station side).messageOpen with
  | false =>
    rw [run_finish_of_empty (by simp [isOpen]), isOpen]
    exact .shut isOpen
  | true =>
    cases isLoaded : (link.station side).messageLoaded with
    | false =>
      rw [run_finish_of_empty (by simp [isLoaded]), isOpen]
      exact .empty isOpen isLoaded
    | true =>
      by_cases crossed : (link.station side).tx.size = 0
      · rw [run_finish_of_crossed isOpen isLoaded crossed]
        exact .crossed isOpen isLoaded crossed
      · rw [run_finish_of_waiting isOpen isLoaded crossed]
        exact .waiting isOpen isLoaded crossed

theorem run_deliver (sender : Side) :
    (deliver sender).run link =
      let taken :=
        Station.intake link.time (link.station sender).tx.entries (link.station sender.peer)
      ⟨(), (link.withStation sender
          { link.station sender with tx := (link.station sender).tx.drop taken.1 }).withStation
          sender.peer taken.2,
        ((link.station sender).tx.entries.take taken.1).flatMap (crossing sender)⟩ :=
  rfl

theorem create_eq_ok_iff {config : Config} {link : Link} :
    create config = .ok link ↔ config.Accepted ∧ link = idle config 0 := by
  unfold create
  by_cases accepted : config.Accepted
  · simp [accepted, eq_comm]
  · simp [accepted]

theorem run_reset_of_accepted {link : Link} (accepted : link.config.Accepted) :
    reset.run link = ⟨(), idle link.config link.time, [.linkReset]⟩ := by
  simp [Step.run, reset, create, accepted, idle]

theorem run_reset_of_rejected {link : Link} (rejected : ¬ link.config.Accepted) :
    reset.run link = ⟨(), link, [.linkReset]⟩ := by
  simp [Step.run, reset, create, rejected]

theorem events_reset (link : Link) : (reset.run link).events = [.linkReset] := by
  by_cases accepted : link.config.Accepted
  · rw [run_reset_of_accepted accepted]
  · rw [run_reset_of_rejected accepted]

theorem events_performReset (link : Link) :
    ((perform .reset).run link).events = [.linkReset] :=
  congrArg (· ++ []) (events_reset link)

/-- The settings of a link never change. -/
theorem config_law : Law fun first _ last => last.config = first.config where
  rest _ := rfl
  next first second := second.trans first
  elapse _ _ := rfl
  deliver _ _ := rfl
  setWatermark _ _ _ _ := rfl
  openMessage _ _ := rfl
  finish side link := by
    have finished := finished link side
    generalize (finish side).run link = outcome at finished ⊢
    cases finished <;> rfl
  confirm _ _ := rfl
  stage _ _ _ _ := rfl
  enqueue side block link := by
    by_cases ready : (link.station side).messageOpen = true ∧ (link.station side).tx.HasRoom
    · rw [run_enqueue_of_ready block ready]
      rfl
    · rw [run_enqueue_of_unready block ready]
  dequeue side link := by
    cases shown : (link.station side).peek with
    | ok block =>
      rw [run_dequeue_of_ok shown]
      rfl
    | error refusal => rw [run_dequeue_of_error shown]
  remark _ _ _ := rfl
  reset link := by
    by_cases accepted : link.config.Accepted
    · rw [run_reset_of_accepted accepted]
      rfl
    · rw [run_reset_of_rejected accepted]

/-- Nothing but deliveries is reported while time passes. -/
theorem delivery_law : Passage fun _ events _ => ∀ event ∈ events, event.IsDelivery where
  toChains := chains_events Event.IsDelivery
  elapse _ _ := by simp
  deliver sender link := by
    intro event member
    rw [run_deliver] at member
    obtain ⟨entry, -, reported⟩ := List.mem_flatMap.mp member
    cases final : entry.final <;> simp [crossing, final] at reported
    · subst reported
      trivial
    · rcases reported with rfl | rfl <;> trivial

theorem quiet_atStation {α : Type} (step : Step Station.Event Station α) :
    ∀ event ∈ ((atStation side step).run link).events, event.IsQuiet := by
  intro event member
  obtain ⟨change, -, rfl⟩ := List.mem_map.mp member
  trivial

theorem quiet_finish : ∀ event ∈ ((finish side).run link).events, event.IsQuiet := by
  have finished := finished link side
  generalize (finish side).run link = outcome at finished ⊢
  cases finished <;> simp [Event.IsQuiet]

section Reports

variable (property : Event → Prop) (quiet : ∀ event : Event, event.IsQuiet → property event)
include quiet

theorem framing_of_quiet : Framing fun _ events _ => ∀ event ∈ events, property event where
  toChains := chains_events property
  elapse _ _ := by simp
  deliver sender link event member := by
    refine quiet event ?_
    have delivery := delivery_law.deliver sender link event member
    cases event <;> trivial
  setWatermark side _ _ link event member := quiet event (quiet_atStation link side _ event member)
  openMessage side link event member := quiet event (quiet_atStation link side _ event member)
  finish side link event member := quiet event (quiet_finish link side event member)
  confirm side link event member := quiet event (quiet_atStation link side _ event member)
  remark remarked isRemark link event member := by
    refine quiet event ?_
    obtain rfl : event = remarked := by simpa using member
    cases event <;> trivial

theorem loading_of_quiet (loaded : ∀ side block, property (.loaded side block)) :
    Loading fun _ events _ => ∀ event ∈ events, property event where
  toFraming := framing_of_quiet property quiet
  stage _ _ _ _ := by simp [stage]
  enqueue side block link := by
    by_cases ready : (link.station side).messageOpen = true ∧ (link.station side).tx.HasRoom
    · simp [run_enqueue_of_ready block ready, loaded]
    · simp [run_enqueue_of_unready block ready]

theorem reading_of_quiet (read : ∀ side block, property (.read side block)) :
    Reading fun _ events _ => ∀ event ∈ events, property event where
  toFraming := framing_of_quiet property quiet
  dequeue side link := by
    cases shown : (link.station side).peek with
    | ok block => simp [run_dequeue_of_ok shown, read]
    | error refusal => simp [run_dequeue_of_error shown]

end Reports

end Link

end BlockLink
