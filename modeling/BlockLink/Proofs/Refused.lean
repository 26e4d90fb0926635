import BlockLink.Proofs.Arrival
import BlockLink.Proofs.Refinement

/-!
Calls that are refused.

A call is charged before anything is decided, and a refusal is decided before anything is
changed. So a call that is refused lets time pass and does nothing else. A load that is refused
leaves no mark on the open message either: as long as nothing was loaded into it, to close it is
to take note that none is open.
-/

namespace BlockLink

theorem Status.refusal?_eq_some {status : Status} {refusal : Refusal}
    (refused : status.refusal? = some refusal) :
    refusal = .unavailable ∨ refusal = .blocked := by
  unfold refusal? at refused
  split at refused
  · cases refused
    exact .inl rfl
  · split at refused
    · cases refused
      exact .inr rfl
    · cases refused

namespace Link

variable {link : Link} {side : Side} {refusal : Refusal}

section Calls

theorem run_effect_of_refused {command : Command}
    (refused : ((effect side command).run link).value = .refused refusal) :
    (effect side command).run link = ⟨.refused refusal, link, []⟩ := by
  cases command with
  | setWatermark queue level =>
    by_cases valid : WatermarkValid level
    · have answered := value_setWatermark link side queue level
      rw [if_pos valid] at answered
      rw [effect, Step.run_map, answered] at refused
      cases refused
    · rw [effect, Step.run_map, setWatermark, run_atStation,
        Station.run_setWatermark_of_invalid _ queue valid, withStation_self] at refused ⊢
      cases refused
      rfl
  | load block =>
    by_cases ready : (link.station side).IsReady
    · rw [effect, Step.run_map, value_load_of_ready block ready] at refused
      cases refused
    · rw [effect, Step.run_map, run_load_of_unready block ready] at refused ⊢
      cases refused
      rfl
  | read =>
    cases shown : (link.station side).peek with
    | ok block =>
      rw [effect, Step.run_map, value_read_of_ok shown] at refused
      cases refused
    | error reason =>
      rw [effect, Step.run_map, run_read_of_error shown] at refused ⊢
      cases refused
      rfl
  | openMessage | closeMessage | confirm | status | now | waitFor => cases refused

theorem run_directCall_of_refused {command : Command} (isAccess : command.IsAccess)
    (refused : ((call .direct side command).run link).value = .ok (.refused refusal)) :
    (call .direct side command).run link =
      ⟨.ok (.refused refusal), (charge.run link).state, (charge.run link).events⟩ := by
  rw [run_directCall link side isAccess] at refused ⊢
  dsimp only at refused ⊢
  rw [run_effect_of_refused (Except.ok.inj refused), List.append_nil]

theorem state_callWait_of_refused (route : Route) (aim : Watch.Aim)
    (refused : ((call route side (.waitFor aim)).run link).value = .ok (.refused refusal)) :
    refusal = .timeout ∧ ∃ polls, 1 ≤ polls ∧ polls ≤ max aim.timeout.toNat 1 ∧
      ((call route side (.waitFor aim)).run link).state = ((charges polls).run link).state := by
  obtain ⟨polls, positive, within, -, ends⟩ := Watch.ends_waitFor (route.watch side) aim link
  have state := state_of_ends link side route positive ends
  rw [run_callWait] at refused ⊢
  refine ⟨?_, polls, positive, within, state⟩
  generalize ((route.watch side).waitFor aim).run link = outcome at ends refused
  cases ends with
  | expired => cases refused; rfl
  | met | failed => cases refused

theorem run_driverRead_of_refused
    (refused : ((Driver.read.run (bus side)).run link).value = .ok (.error refusal)) :
    (refusal = .unavailable ∨ refusal = .blocked) ∧
      (Driver.read.run (bus side)).run link =
        ⟨.ok (.error refusal), (charge.run link).state, (charge.run link).events⟩ := by
  rw [run_driverRead, Step.run_bind, run_endpointStatus] at refused ⊢
  dsimp only at refused ⊢
  cases decided : ((charge.run link).state.station side).status.refusal? with
  | some reason =>
    rw [decided] at refused
    cases refused
    simp [Status.refusal?_eq_some decided]
  | none =>
    rw [decided] at refused
    cases refused

theorem run_driverTransfer_of_refused {command : Command} (transfers : command.Transfers)
    (refused : ((call .registers side command).run link).value = .ok (.refused refusal)) :
    (refusal = .unavailable ∨ refusal = .blocked) ∧
      (call .registers side command).run link =
        ⟨.ok (.refused refusal), (charge.run link).state, (charge.run link).events⟩ := by
  cases command with
  | load block =>
    by_cases ready : ((charge.run link).state.station side).IsReady
    · rw [run_registersLoad_of_ready ready] at refused
      cases refused
    · rw [run_registersLoad_of_unready ready] at refused ⊢
      cases refused
      exact ⟨.inl rfl, rfl⟩
  | read =>
    rw [call, Driver.perform, Step.run_bind] at refused ⊢
    dsimp only at refused ⊢
    have isRefused : ((Driver.read.run (bus side)).run link).value = .ok (.error refusal) := by
      generalize ((Driver.read.run (bus side)).run link).value = answer at refused
      cases answer with
      | ok given =>
        cases given with
        | ok block => cases refused
        | error reason => cases refused; rfl
      | error fault => cases refused
    obtain ⟨reason, outcome⟩ := run_driverRead_of_refused isRefused
    rw [outcome]
    exact ⟨reason, by simp [Reply.ofBlock]⟩
  | setWatermark | openMessage | closeMessage | confirm | status | now | waitFor =>
    exact absurd transfers id

/-- A level that is out of range is refused before any register is accessed. -/
theorem run_driverSetWatermark_of_refused (queue : Queue) (level : UInt64)
    (refused : ((call .registers side (.setWatermark queue level)).run link).value =
      .ok (.refused refusal)) :
    refusal = .invalidArgument ∧
      Driver.setWatermark queue level = .answer (.error .invalidArgument) ∧
      (call .registers side (.setWatermark queue level)).run link =
        ⟨.ok (.refused .invalidArgument), link, []⟩ := by
  by_cases valid : WatermarkValid level
  · rw [call, Driver.perform, Step.run_bind, Driver.setWatermark, if_pos valid,
      Program.run_bind, Step.run_bind, Step.run_pure] at refused
    dsimp only at refused
    generalize ((Driver.updateControl (ControlWord.watermark queue) level.toNat).run
      (bus side)).run link = updated at refused
    cases answer : updated.value with
    | ok done =>
      rw [answer] at refused
      cases refused
    | error fault =>
      rw [answer] at refused
      cases refused
  · obtain ⟨unchanged, -⟩ := callSetWatermark_of_invalid link side queue valid
    rw [unchanged] at refused
    cases refused
    exact ⟨rfl, if_neg valid, unchanged⟩

end Calls

section Window

variable {position : Fin 4} {block : Block}

theorem run_performReadData (link : Link) (side : Side) (position : Fin 4) :
    (perform (.readRegister side (Register.readData position).address)).run link =
      let shown := (readData side position).run link
      ⟨.word shown.value, shown.state, shown.events⟩ := by
  rw [perform, readRegister_readData]
  simp [Answer.ofWord]

theorem run_performWriteData (link : Link) (side : Side) (position : Fin 4) (word : UInt32) :
    (perform (.writeRegister side (Register.writeData position).address word)).run link =
      let written := (writeData side position word).run link
      ⟨.done, written.state, written.events⟩ := by
  rw [perform, writeRegister_writeData]
  simp

theorem run_showData_of_ok :
    (showData side position (.ok block)).run link = ⟨block.word position, link, []⟩ :=
  rfl

/-- A read of the window that shows a block reports deliveries, and the block if it takes it. -/
theorem events_readData_of_ok
    (shown : ((charge.run link).state.station side).peek = .ok block) :
    ∀ event ∈ ((readData side position).run link).events,
      event.IsDelivery ∨ event = .read side block := by
  have charged := delivery_law.charge link
  intro event member
  by_cases last : position = 3
  · simp only [readData, last, if_true, Step.run_bind, value_read_of_ok shown, run_showData_of_ok,
      List.append_nil] at member
    rcases List.mem_append.mp member with early | late
    · exact .inl (charged event early)
    · simpa using (amid_read_of_ok shown).mem late
  · simp only [readData, last, if_false, Step.run_bind, Step.run_observe, shown,
      run_showData_of_ok, List.append_nil] at member
    exact .inl (charged event member)

/-- A read of the window is refused if and only if no block can be read behind its charge. -/
theorem windowUnreadable_iff :
    .windowUnreadable side refusal ∈ ((readData side position).run link).events ↔
      ((charge.run link).state.station side).peek = .error refusal := by
  constructor
  · intro reported
    cases shown : ((charge.run link).state.station side).peek with
    | ok block =>
      rcases events_readData_of_ok shown _ reported with delivery | taken <;> contradiction
    | error reason =>
      rw [run_readData_of_error shown] at reported
      rcases List.mem_append.mp reported with early | last
      · exact absurd (delivery_law.charge link _ early) id
      · cases List.mem_singleton.mp last
        rfl
  · intro shown
    rw [run_readData_of_error shown]
    simp

theorem run_writeLast_of_unready (word : UInt32)
    (unready : ¬ ((charge.run link).state.station side).IsReady) :
    (writeData side 3 word).run link =
      let charged := charge.run link
      let block := (charged.state.staged.get side).setWord word 3
      ⟨(), charged.state.withStaged side block,
        charged.events ++ [.blockDropped side .unavailable]⟩ := by
  have later := unready
  rw [← station_withStaged side _ (((charge.run link).state.staged.get side).setWord word 3)]
    at later
  simp [writeData, commit, run_stage, run_load_of_unready _ later]

/-- The write that completes a block is refused if and only if the side is not ready behind its
charge. -/
theorem blockDropped_iff {word : UInt32} :
    .blockDropped side refusal ∈ ((writeData side 3 word).run link).events ↔
      refusal = .unavailable ∧ ¬ ((charge.run link).state.station side).IsReady := by
  have charged := delivery_law.charge link
  by_cases ready : ((charge.run link).state.station side).IsReady
  · have later := ready
    rw [← station_withStaged side _ (((charge.run link).state.staged.get side).setWord word 3)]
      at later
    rw [run_writeLast_of_ready ready]
    refine ⟨fun reported => ?_, fun refused => absurd ready refused.2⟩
    rcases List.mem_append.mp reported with early | late
    · exact absurd (charged _ early) id
    · rcases (amid_load_of_ready _ later).mem late with delivery | loaded
      · exact absurd delivery id
      · cases List.mem_singleton.mp loaded
  · rw [run_writeLast_of_unready word ready]
    constructor
    · intro reported
      rcases List.mem_append.mp reported with early | last
      · exact absurd (charged _ early) id
      · cases List.mem_singleton.mp last
        exact ⟨rfl, ready⟩
    · rintro ⟨rfl, -⟩
      simp

end Window

end Link

/-- Whether the log tells that a side has a message open into which nothing was loaded, given
whether it told so before. -/
def Event.vacancy (side : Side) (vacant : Bool) : Event → Bool
  | .station opener .messageOpened => vacant || opener = side
  | .station closer .messageClosed => vacant && closer ≠ side
  | .loaded loader _ => vacant && loader ≠ side
  | .linkReset => false
  | .station _ (.boundaryMarked _) | .station _ .boundaryConfirmed | .station _ .finalArrived
  | .crossed .. | .read .. | .reported .. | .waitTimedOut .. | .watermarkIgnored ..
  | .blockDropped .. | .windowUnreadable .. | .interruptRead .. | .writeOnlyRead ..
  | .unknownRead .. | .interruptWrite .. | .readOnlyWrite .. | .unknownWrite .. => vacant

theorem Event.vacancy_elsewhere {side : Side} {event : Event} (foreign : ¬ event.Concerns side)
    (vacant : Bool) : event.vacancy side vacant = vacant := by
  cases event with
  | station owner change => cases change <;> simp_all [vacancy, Concerns]
  | loaded => simp_all [vacancy, Concerns]
  | linkReset => exact absurd trivial foreign
  | crossed | read | reported | waitTimedOut | watermarkIgnored | blockDropped
  | windowUnreadable | interruptRead | writeOnlyRead | unknownRead | interruptWrite
  | readOnlyWrite | unknownWrite => rfl

namespace Lane

/-- Whether the sender has a message open and has loaded nothing into it. -/
def IsVacant (lane : Lane) : Prop := lane.isOpen = true ∧ lane.isLoaded = false

variable {side : Side} {first last : Lane} {events : List Event} {vacant : Bool}

theorem Move.isVacant (move : Move side first events last) (known : vacant = true → first.IsVacant)
    (told : events.foldl (Event.vacancy side) vacant = true) : last.IsVacant := by
  cases move with
  | elsewhere foreign =>
    rw [List.foldl_cons, List.foldl_nil, Event.vacancy_elsewhere foreign] at told
    exact known told
  | opened => exact ⟨rfl, rfl⟩
  | closedNone isShut =>
    have isOpen := (known told).1
    rw [isShut] at isOpen
    cases isOpen
  | closedEmpty | closedWaiting | closedCrossed | loaded | reset =>
    simp [Event.vacancy] at told
  | @crossed entry rest waiting able =>
    have unchanged : (Link.crossing side entry).foldl (Event.vacancy side) vacant = vacant := by
      cases final : entry.final <;> simp [Link.crossing, final, Event.vacancy]
    rw [unchanged] at told
    exact known told
  | confirmed | read => exact known told

theorem Trace.isVacant (trace : Trace side first events last)
    (known : vacant = true → first.IsVacant)
    (told : events.foldl (Event.vacancy side) vacant = true) : last.IsVacant := by
  induction trace with
  | rest => exact known told
  | next earlier move inductionHypothesis =>
    rw [List.foldl_append] at told
    exact move.isVacant inductionHypothesis told

end Lane

namespace Link

variable (side : Side)

/-- Whether what the log tells of a message without blocks is so. -/
def TellsVacancy (link : Link) (events : List Event) (last : Link) : Prop :=
  ∀ vacant : Bool, (vacant = true → (link.lane side).IsVacant) →
    events.foldl (Event.vacancy side) vacant = true → (last.lane side).IsVacant

variable {side}

theorem TellsVacancy.of_trace {link last : Link} {events : List Event}
    (trace : Lane.Trace side (link.lane side) events (last.lane side)) :
    TellsVacancy side link events last :=
  fun _ => trace.isVacant

variable (side)

theorem vacancy_law : Law (TellsVacancy side) where
  rest _ := .of_trace .rest
  next first second vacant known told := by
    rw [List.foldl_append] at told
    exact second _ (first vacant known) told
  elapse _ _ := .of_trace .rest
  deliver sender link := .of_trace (trace_deliver link sender side)
  setWatermark owner queue level link := .of_trace (trace_setWatermark link owner side queue level)
  openMessage owner link := .of_trace (trace_openMessage link owner side)
  finish owner link := .of_trace (trace_finish link owner side)
  confirm owner link := .of_trace (trace_confirm link owner side)
  enqueue owner block link := .of_trace (trace_enqueue link owner side block)
  dequeue owner link := .of_trace (trace_dequeue link owner side)
  stage _ _ _ _ := .of_trace .rest
  reset link vacant known told := by
    rw [events_reset] at told
    cases told
  remark event isRemark link := by
    apply TellsVacancy.of_trace
    apply Lane.Trace.single
    apply Lane.Move.elsewhere
    intro concerns
    cases event <;> first | exact isRemark | exact concerns

/-- Once a message has been opened, nothing but its end, a load into it and a reset makes it
anything else than a message without blocks. -/
theorem foldl_vacancy {events : List Event} (keepsLink : .linkReset ∉ events)
    (keepsOpen : .station side .messageClosed ∉ events)
    (loadsNothing : ∀ block, .loaded side block ∉ events) :
    events.foldl (Event.vacancy side) true = true := by
  induction events with
  | nil => rfl
  | cons event rest inductionHypothesis =>
    have unchanged : Event.vacancy side true event = true := by
      cases event with
      | station owner change =>
        cases change with
        | messageClosed =>
          have isForeign : owner ≠ side := fun same => keepsOpen (by simp [same])
          simp [Event.vacancy, isForeign]
        | messageOpened | boundaryMarked | boundaryConfirmed | finalArrived => rfl
      | loaded owner block =>
        have isForeign : owner ≠ side := fun same => loadsNothing block (by simp [same])
        simp [Event.vacancy, isForeign]
      | linkReset => simp at keepsLink
      | crossed | read | reported | waitTimedOut | watermarkIgnored | blockDropped
      | windowUnreadable | interruptRead | writeOnlyRead | unknownRead | interruptWrite
      | readOnlyWrite | unknownWrite => rfl
    rw [List.foldl_cons, unchanged]
    apply inductionHypothesis
    · exact fun member => keepsLink (List.mem_cons_of_mem _ member)
    · exact fun member => keepsOpen (List.mem_cons_of_mem _ member)
    · exact fun block member => loadsNothing block (List.mem_cons_of_mem _ member)

theorem isVacant_of_log (link : Link) {operations : List Operation} {before after : List Event}
    (fresh : ∀ operation ∈ operations, ¬ operation.Restores)
    (log : ((performAll operations).run link).events =
      before ++ .station side .messageOpened :: after)
    (keepsLink : .linkReset ∉ after) (keepsOpen : .station side .messageClosed ∉ after)
    (loadsNothing : ∀ block, .loaded side block ∉ after) :
    (((performAll operations).run link).state.lane side).IsVacant := by
  apply (vacancy_law side).performAll operations fresh link false nofun
  have opened (vacant : Bool) :
      Event.vacancy side vacant (.station side .messageOpened) = true := by
    simp [Event.vacancy]
  rw [log, List.foldl_append, List.foldl_cons, opened]
  exact foldl_vacancy side keepsLink keepsOpen loadsNothing

theorem state_settle_of_settled {link : Link} (settled : link.Settled) :
    (settle.run link).state = link := by
  apply eq_of_lanes (aside_law.settle link) _ (time_settle link)
  intro sender
  rw [lane_settle, Lane.flow_of_settled (settled sender)]

/-- The link when a side has closed a message without blocks. -/
def withoutMessage (link : Link) (side : Side) : Link :=
  link.withStation side { link.station side with messageOpen := false }

theorem state_closeMessage_of_vacant {link : Link} (settled : link.Settled)
    (vacant : (link.lane side).IsVacant) :
    ((closeMessage side).run link).state = link.withoutMessage side := by
  have isLoaded : (link.station side).messageLoaded = false := vacant.2
  have noBlocks :
      ((link.station side).messageOpen && (link.station side).messageLoaded) = false := by
    rw [isLoaded, Bool.and_false]
  have finished : ((finish side).run link).state = link.withoutMessage side := by
    rw [run_finish_of_empty noBlocks, withoutMessage, ← isLoaded]
  have settledFinished : (link.withoutMessage side).Settled := by
    intro sender
    rcases Side.self_or_peer side sender with rfl | rfl
    · rw [withoutMessage, lane_withStation_self]
      exact settled sender
    · rw [withoutMessage, lane_withStation_peer]
      have still := settled side.peer
      rw [lane_peer] at still
      exact still
  rw [state_closeMessage, finished, state_settle_of_settled settledFinished]

theorem state_callClose_of_vacant {link : Link} (vacant : (link.lane side).IsVacant) :
    ((call .direct side .closeMessage).run link).state =
      (charge.run link).state.withoutMessage side := by
  have deliveries := delivery_law.charge link
  have told := foldl_vacancy side (deliveries _) (deliveries _) fun _ => deliveries _
  have vacantLater := (vacancy_law side).charge link true (fun _ => vacant) told
  have isAccess : Command.closeMessage.IsAccess := trivial
  rw [run_directCall link side isAccess]
  exact state_closeMessage_of_vacant side (settled_charge link) vacantLater

/-- A call that is refused lets the time of its accesses pass and does nothing else, nor is
anything but this in the log. So a load that is refused leaves no mark on the open message, and of
a load through the write window only the last word stays behind. A message into which nothing was
loaded, as the log tells, closes without a mark. -/
theorem refused_without_trace (link : Link) (side : Side) :
    let charged := charge.run link
    let direct command := (call .direct side command).run link
    let driven command := (call .registers side command).run link
    let shown position :=
      (perform (.readRegister side (Register.readData position).address)).run link
    let written word :=
      (perform (.writeRegister side (Register.writeData 3).address word)).run link
    charged.state = ((advance link.config.accessCycles).run link).state ∧
    (∀ (command : Command) refusal, command.IsAccess →
      (direct command).value = .ok (.refused refusal) →
      direct command = ⟨.ok (.refused refusal), charged.state, charged.events⟩) ∧
    (∀ route aim refusal,
      let waited := (call route side (.waitFor aim)).run link
      waited.value = .ok (.refused refusal) →
      refusal = .timeout ∧ ∃ polls, 1 ≤ polls ∧ polls ≤ max aim.timeout.toNat 1 ∧
        waited.state = ((charges polls).run link).state) ∧
    (∀ (command : Command) refusal, command.Transfers →
      (driven command).value = .ok (.refused refusal) →
      (refusal = .unavailable ∨ refusal = .blocked) ∧
        driven command = ⟨.ok (.refused refusal), charged.state, charged.events⟩) ∧
    (∀ queue level refusal,
      (driven (.setWatermark queue level)).value = .ok (.refused refusal) →
      refusal = .invalidArgument ∧
        Driver.setWatermark queue level = .answer (.error .invalidArgument) ∧
        driven (.setWatermark queue level) = ⟨.ok (.refused .invalidArgument), link, []⟩) ∧
    (∀ position refusal,
      (.windowUnreadable side refusal ∈ (shown position).events ↔
        (charged.state.station side).peek = .error refusal) ∧
      (.windowUnreadable side refusal ∈ (shown position).events →
        shown position =
          ⟨.word 0, charged.state, charged.events ++ [.windowUnreadable side refusal]⟩)) ∧
    (∀ word refusal,
      (.blockDropped side refusal ∈ (written word).events ↔
        refusal = .unavailable ∧ ¬ (charged.state.station side).IsReady) ∧
      (.blockDropped side refusal ∈ (written word).events →
        written word =
          ⟨.done, charged.state.withStaged side ((charged.state.staged.get side).setWord word 3),
            charged.events ++ [.blockDropped side refusal]⟩)) ∧
    ∀ (operations : List Operation) (before after : List Event),
      (∀ operation ∈ operations, ¬ operation.Restores) →
      ((performAll operations).run link).events =
        before ++ .station side .messageOpened :: after →
      .linkReset ∉ after → .station side .messageClosed ∉ after →
      (∀ block, .loaded side block ∉ after) →
      let later := ((performAll operations).run link).state
      ((call .direct side .closeMessage).run later).state =
        (charge.run later).state.withoutMessage side := by
  intro charged direct driven shown written
  refine ⟨congrArg Outcome.state (run_charge link), fun _ _ => run_directCall_of_refused,
    fun route aim _ => state_callWait_of_refused route aim,
    fun _ _ => run_driverTransfer_of_refused,
    fun queue level _ => run_driverSetWatermark_of_refused queue level, ?_, ?_, ?_⟩
  · intro position refusal
    dsimp only [shown]
    rw [run_performReadData]
    refine ⟨windowUnreadable_iff, fun reported => ?_⟩
    rw [run_readData_of_error (windowUnreadable_iff.mp reported)]
  · intro word refusal
    dsimp only [written]
    rw [run_performWriteData]
    refine ⟨blockDropped_iff, fun reported => ?_⟩
    obtain ⟨rfl, unready⟩ := blockDropped_iff.mp reported
    rw [run_writeLast_of_unready word unready]
  · intro operations before after fresh log keepsLink keepsOpen loadsNothing
    apply state_callClose_of_vacant
    exact isVacant_of_log side link fresh log keepsLink keepsOpen loadsNothing

/-- The message before has left no room, so the open one stays empty, and its end marks nothing. -/
theorem refused_without_trace_behind_full_queue :
    let block : Block := ⟨1, 2, 3, 4⟩
    let load : Operation := .call .direct .left (.load block)
    let earlier : List Operation :=
      [.call .direct .left .openMessage, load, load, load, load,
        .call .direct .left .closeMessage, .call .direct .left .openMessage]
    let start := Link.idle { linkLatency := 100 } 0
    let begun := ((performAll earlier).run start).state
    let refused := (call .direct .left (.load block)).run begun
    let later := ((performAll (earlier ++ [load])).run start).state
    refused =
      ⟨.ok (.refused .unavailable), (charge.run begun).state, (charge.run begun).events⟩ ∧
    (later.station .left).messageOpen = true ∧
    ((call .direct .left .closeMessage).run later).state =
      (charge.run later).state.withoutMessage .left := by
  intro block load earlier start begun refused later
  obtain ⟨-, direct, -⟩ := refused_without_trace begun .left
  obtain ⟨-, -, -, -, -, -, -, closed⟩ := refused_without_trace start .left
  have isRefused : refused.value = .ok (.refused .unavailable) := by decide +kernel
  have isAccess : (Command.load block).IsAccess := trivial
  have log : ((performAll (earlier ++ [load])).run start).events =
      [.station .left .messageOpened, .loaded .left block, .loaded .left block,
        .loaded .left block, .loaded .left block, .station .left .messageClosed] ++
        .station .left .messageOpened :: [] := by
    decide +kernel
  refine ⟨direct _ _ isAccess isRefused, by decide +kernel, ?_⟩
  exact closed (earlier ++ [load]) _ [] (by decide) log (by simp) (by simp) (by simp)

end Link

end BlockLink
