import BlockLink.Proofs.Driver

/-!
What a call answers and reports, whichever way it reaches its instance.

A call through the registers takes more accesses than one to the model, and so
lets more time pass. In both cases it acts once, and all else that it reports are
deliveries.
-/

namespace BlockLink

/-- What happens at once, amid deliveries. -/
def Event.Amid (core events : List Event) : Prop :=
  ∃ before after, events = before ++ core ++ after ∧
    (∀ event ∈ before, event.IsDelivery) ∧ ∀ event ∈ after, event.IsDelivery

namespace Event

theorem amid_nil {events : List Event} (deliveries : ∀ event ∈ events, event.IsDelivery) :
    Amid [] events :=
  ⟨events, [], by simp, deliveries, by simp⟩

theorem amid_append (core : List Event) {after : List Event}
    (deliveries : ∀ event ∈ after, event.IsDelivery) :
    Amid core (core ++ after) :=
  ⟨[], after, rfl, by simp, deliveries⟩

theorem Amid.behind {core first events : List Event}
    (deliveries : ∀ event ∈ first, event.IsDelivery) (amid : Amid core events) :
    Amid core (first ++ events) := by
  obtain ⟨before, after, rfl, deliversBefore, deliversAfter⟩ := amid
  refine ⟨first ++ before, after, by simp, ?_, deliversAfter⟩
  intro event member
  exact (List.mem_append.mp member).elim (deliveries event) (deliversBefore event)

theorem Amid.mem {core events : List Event} (amid : Amid core events) {event : Event}
    (member : event ∈ events) : event.IsDelivery ∨ event ∈ core := by
  obtain ⟨before, after, rfl, deliversBefore, deliversAfter⟩ := amid
  rcases List.mem_append.mp member with earlier | inAfter
  · rcases List.mem_append.mp earlier with inBefore | inCore
    · exact .inl (deliversBefore event inBefore)
    · exact .inr inCore
  · exact .inl (deliversAfter event inAfter)

theorem Amid.count_eq {core events : List Event} (amid : Amid core events) {event : Event}
    (notDelivery : ¬ event.IsDelivery) : events.count event = core.count event := by
  obtain ⟨before, after, rfl, deliversBefore, deliversAfter⟩ := amid
  have absentBefore : before.count event = 0 :=
    List.count_eq_zero.mpr fun member => notDelivery (deliversBefore event member)
  have absentAfter : after.count event = 0 :=
    List.count_eq_zero.mpr fun member => notDelivery (deliversAfter event member)
  rw [List.count_append, List.count_append, absentBefore, absentAfter, Nat.zero_add, Nat.add_zero]

end Event

/-- The number of register accesses that are charged before a call acts which only acts. -/
def Route.accesses : Route → Nat
  | .direct => 1
  | .registers => 2

namespace Link

variable (route : Route) (side : Side) (link : Link)

theorem amid_load_of_ready {link : Link} {side : Side} (block : Block)
    (ready : (link.station side).IsReady) :
    Event.Amid [.loaded side block] ((load side block).run link).events := by
  rw [load_eq, Step.run_bind, run_enqueue_of_ready block ready]
  simpa using Event.amid_append [.loaded side block] (delivery_law.settle _)

theorem amid_read_of_ok {link : Link} {side : Side} {block : Block}
    (shown : (link.station side).peek = .ok block) :
    Event.Amid [.read side block] ((read side).run link).events := by
  rw [read_eq, Step.run_bind, run_dequeue_of_ok shown]
  simpa using Event.amid_append [.read side block] (delivery_law.settle _)

theorem run_callStatus :
    (call route side .status).run link =
      ⟨.ok (.status ((charge.run link).state.status side)), (charge.run link).state,
        (charge.run link).events⟩ := by
  cases route with
  | direct => simp [call, Endpoint.perform, run_endpointStatus, status]
  | registers =>
    rw [call, Driver.perform, Step.run_bind, run_status, Step.run_map, run_endpointStatus]
    simp only [Step.run_pure, List.append_nil]
    rfl

section Transfers

variable {link side} {block : Block}

theorem run_directLoad :
    (call .direct side (.load block)).run link =
      ⟨.ok (.ofUnit ((load side block).run (charge.run link).state).value),
        ((load side block).run (charge.run link).state).state,
        (charge.run link).events ++ ((load side block).run (charge.run link).state).events⟩ := by
  simp [call, Endpoint.perform, Endpoint.load]

theorem run_registersLoad_of_ready (ready : ((charge.run link).state.station side).IsReady) :
    (call .registers side (.load block)).run link =
      let loaded := (load side block).run (((charges 5).run link).state.withStaged side block)
      ⟨.ok .done, loaded.state, ((charges 5).run link).events ++ loaded.events⟩ := by
  rw [call, Driver.perform, Step.run_bind, run_driverLoad_of_ready block ready]
  simp only [Step.run_pure, List.append_nil]
  rfl

theorem run_registersLoad_of_unready (unready : ¬ ((charge.run link).state.station side).IsReady) :
    (call .registers side (.load block)).run link =
      ⟨.ok (.refused .unavailable), (charge.run link).state, (charge.run link).events⟩ := by
  rw [call, Driver.perform, Step.run_bind, run_driverLoad_of_unready block unready]
  simp only [Step.run_pure, List.append_nil]
  rfl

theorem run_directRead :
    (call .direct side .read).run link =
      ⟨.ok (.ofBlock ((read side).run (charge.run link).state).value),
        ((read side).run (charge.run link).state).state,
        (charge.run link).events ++ ((read side).run (charge.run link).state).events⟩ := by
  simp [call, Endpoint.perform, Endpoint.read]

theorem run_registersRead_of_error {refusal : Refusal}
    (framed : ((charge.run link).state.station side).Framed)
    (shown : ((charge.run link).state.station side).peek = .error refusal) :
    (call .registers side .read).run link =
      ⟨.ok (.refused refusal), (charge.run link).state, (charge.run link).events⟩ := by
  rw [call, Driver.perform, Step.run_bind, run_driverRead_of_error framed shown]
  simp only [Step.run_pure, List.append_nil]
  rfl

theorem run_registersRead_of_ok (framed : ((charge.run link).state.station side).Framed)
    (shown : ((charge.run link).state.station side).peek = .ok block) :
    (call .registers side .read).run link =
      let taken := (read side).run ((charges 5).run link).state
      ⟨.ok (.block block), taken.state, ((charges 5).run link).events ++ taken.events⟩ := by
  rw [call, Driver.perform, Step.run_bind, run_driverRead_of_ok framed shown]
  simp only [Step.run_pure, List.append_nil]
  rfl

end Transfers

/-- A load either is refused without a trace, or is accepted. -/
theorem run_callLoad (block : Block) :
    let outcome := (call route side (.load block)).run link
    (outcome.value = .ok (.refused .unavailable) ∧ Event.Amid [] outcome.events) ∨
      (outcome.value = .ok .done ∧ Event.Amid [.loaded side block] outcome.events) := by
  have charged := delivery_law.charge link
  by_cases ready : ((charge.run link).state.station side).IsReady
  · right
    cases route with
    | direct =>
      have loaded := amid_load_of_ready block ready
      rw [run_directLoad, value_load_of_ready block ready]
      exact ⟨rfl, loaded.behind charged⟩
    | registers =>
      have lasting : (((charges 5).run link).state.station side).IsReady := by
        rw [state_charges_succ 4]
        exact ready_law.charges 4 (charge.run link).state side ready
      rw [← station_withStaged side _ block] at lasting
      have loaded := amid_load_of_ready block lasting
      rw [run_registersLoad_of_ready ready]
      exact ⟨rfl, loaded.behind (delivery_law.charges 5 link)⟩
  · left
    cases route with
    | direct =>
      rw [run_directLoad, run_load_of_unready block ready]
      dsimp only
      rw [List.append_nil]
      exact ⟨rfl, Event.amid_nil charged⟩
    | registers =>
      rw [run_registersLoad_of_unready ready]
      exact ⟨rfl, Event.amid_nil charged⟩

/-- A read either is refused without a trace, or takes a block. -/
theorem run_callRead (framed : ((charge.run link).state.station side).Framed) :
    let outcome := (call route side .read).run link
    (∃ refusal, outcome.value = .ok (.refused refusal) ∧ outcome.state = (charge.run link).state ∧
        ((charge.run link).state.station side).peek = .error refusal ∧
        Event.Amid [] outcome.events) ∨
      ∃ block, outcome.value = .ok (.block block) ∧
        Event.Amid [.read side block] outcome.events := by
  have charged := delivery_law.charge link
  cases shown : ((charge.run link).state.station side).peek with
  | error refusal =>
    refine .inl ⟨refusal, ?_⟩
    cases route with
    | direct =>
      rw [run_directRead, run_read_of_error shown]
      dsimp only
      rw [List.append_nil]
      exact ⟨rfl, rfl, rfl, Event.amid_nil charged⟩
    | registers =>
      rw [run_registersRead_of_error framed shown]
      exact ⟨rfl, rfl, rfl, Event.amid_nil charged⟩
  | ok block =>
    refine .inr ⟨block, ?_⟩
    cases route with
    | direct =>
      have taken := amid_read_of_ok shown
      rw [run_directRead, value_read_of_ok shown]
      exact ⟨rfl, taken.behind charged⟩
    | registers =>
      have lasting : (((charges 5).run link).state.station side).peek = .ok block := by
        rw [state_charges_succ 4]
        exact (readable_law block).charges 4 (charge.run link).state side shown
      have taken := amid_read_of_ok lasting
      rw [run_registersRead_of_ok framed shown]
      exact ⟨rfl, taken.behind (delivery_law.charges 5 link)⟩

theorem value_read : ((read side).run link).value = (link.station side).peek := by
  cases shown : (link.station side).peek with
  | ok block => exact value_read_of_ok shown
  | error refusal => rw [run_read_of_error shown]

/-- A read answers what the instance shows once the first access has been charged. -/
theorem value_callRead (framed : ((charge.run link).state.station side).Framed) :
    ((call route side .read).run link).value =
      .ok (.ofBlock ((charge.run link).state.station side).peek) := by
  cases route with
  | direct => rw [run_directRead, value_read]
  | registers =>
    cases shown : ((charge.run link).state.station side).peek with
    | ok block =>
      rw [run_registersRead_of_ok framed shown]
      rfl
    | error refusal =>
      rw [run_registersRead_of_error framed shown]
      rfl

/-- The field of a control write that stands for a call. -/
def pulse? : Command → Option Field
  | .openMessage => some ControlWord.txTrigger
  | .closeMessage => some ControlWord.txEnd
  | .confirm => some ControlWord.rxConfirm
  | .setWatermark .. | .load _ | .read | .status | .now | .waitFor _ => none

theorem pulse?_mem {command : Command} {field : Field} (found : pulse? command = some field) :
    field ∈ ControlWord.pulses := by
  cases command <;> simp [pulse?] at found <;> subst found <;> decide

/-- A call that opens, closes or confirms lets time pass and then acts. -/
theorem run_callPulse (command : Command) {field : Field} (found : pulse? command = some field)
    (valid : (link.station side).Watermarked) :
    (call route side command).run link =
      let acted := (pulseAction side field).run ((charges route.accesses).run link).state
      ⟨.ok .done, acted.state, ((charges route.accesses).run link).events ++ acted.events⟩ := by
  cases route with
  | direct =>
    rw [Route.accesses, run_charges_succ 0]
    cases command with
    | openMessage | closeMessage | confirm =>
      obtain rfl := Option.some.inj found
      simp [call, Endpoint.perform, Endpoint.openMessage, Endpoint.closeMessage, Endpoint.confirm,
        pulseAction, charges, ControlWord.txTrigger, ControlWord.txEnd, ControlWord.rxConfirm]
    | setWatermark | load | read | status | now | waitFor => cases found
  | registers =>
    have outcome := run_driverPulse (pulse?_mem found) valid
    cases command with
    | openMessage | closeMessage | confirm =>
      obtain rfl := Option.some.inj found
      rw [call, Driver.perform, Step.run_bind]
      simp only [Driver.openMessage, Driver.closeMessage, Driver.confirm, outcome, Step.run_pure,
        List.append_nil]
      rfl
    | setWatermark | load | read | status | now | waitFor => cases found

/-- A call that sets a watermark to a valid level lets time pass and then sets it. -/
theorem run_callSetWatermark (queue : Queue) {level : UInt64} (validLevel : WatermarkValid level)
    (valid : (link.station side).Watermarked) :
    (call route side (.setWatermark queue level)).run link =
      let set := (setWatermark side queue level).run ((charges route.accesses).run link).state
      ⟨.ok .done, set.state, ((charges route.accesses).run link).events ++ set.events⟩ := by
  cases route with
  | direct =>
    rw [Route.accesses, run_charges_succ 0]
    simp [call, Endpoint.perform, Endpoint.setWatermark, setWatermark, run_atStation, charges,
      Station.run_setWatermark_of_valid _ _ validLevel, Reply.ofUnit]
  | registers =>
    rw [call, Driver.perform, Step.run_bind, Driver.setWatermark, if_pos validLevel,
      Program.run_bind, Step.run_bind, run_driverSetWatermark queue valid validLevel]
    simp only [Program.run_pure, Step.run_pure, List.append_nil]
    rfl

theorem run_callOpen (valid : (link.station side).Watermarked) :
    let outcome := (call route side .openMessage).run link
    outcome.value = .ok .done ∧
      (Event.Amid [] outcome.events ∨
        Event.Amid [.station side .messageOpened] outcome.events) := by
  have acted := run_callPulse route side link .openMessage rfl valid
  have charged := delivery_law.charges route.accesses link
  have action : pulseAction side ControlWord.txTrigger = openMessage side := by
    rw [pulseAction, if_neg (by decide), if_pos rfl]
  rw [acted, action, openMessage, run_atStation]
  refine ⟨rfl, ?_⟩
  generalize ((charges route.accesses).run link).state = later
  cases isOpen : (later.station side).messageOpen with
  | true =>
    left
    rw [Station.run_openMessage_of_open isOpen]
    apply Event.Amid.behind charged
    exact Event.amid_nil (by simp)
  | false =>
    right
    rw [Station.run_openMessage_of_shut isOpen]
    apply Event.Amid.behind charged
    have alone : Event.Amid [.station side .messageOpened] ([.station side .messageOpened] ++ []) :=
      Event.amid_append _ (by simp)
    exact alone

theorem amid_closeMessage (side : Side) (link : Link) :
    Event.Amid ((finish side).run link).events ((closeMessage side).run link).events := by
  rw [closeMessage_eq, Step.run_bind]
  exact Event.amid_append _ (delivery_law.settle _)

/-- A confirmation reports the boundary that it finds pending, and otherwise nothing. -/
theorem amid_confirm (side : Side) (link : Link) :
    Event.Amid
      (if (link.station side).boundaryPending then [.station side .boundaryConfirmed] else [])
      ((confirm side).run link).events := by
  rw [confirm, Step.run_bind, run_atStation]
  cases isPending : (link.station side).boundaryPending with
  | true =>
    rw [Station.run_confirm_of_pending isPending]
    exact Event.amid_append _ (delivery_law.settle _)
  | false =>
    rw [Station.run_confirm_of_clear isPending]
    exact Event.amid_nil (delivery_law.settle _)

theorem run_callClose (valid : (link.station side).Watermarked) :
    let found := ((charges route.accesses).run link).state
    let outcome := (call route side .closeMessage).run link
    outcome.value = .ok .done ∧ Event.Amid ((finish side).run found).events outcome.events := by
  have acted := run_callPulse route side link .closeMessage rfl valid
  have charged := delivery_law.charges route.accesses link
  have action : pulseAction side ControlWord.txEnd = closeMessage side := by
    rw [pulseAction, if_pos rfl]
  rw [acted, action]
  exact ⟨rfl, .behind charged (amid_closeMessage side _)⟩

theorem run_callConfirm (valid : (link.station side).Watermarked) :
    let found := ((charges route.accesses).run link).state
    let outcome := (call route side .confirm).run link
    outcome.value = .ok .done ∧
      Event.Amid
        (if (found.station side).boundaryPending then [.station side .boundaryConfirmed] else [])
        outcome.events := by
  have acted := run_callPulse route side link .confirm rfl valid
  have charged := delivery_law.charges route.accesses link
  have action : pulseAction side ControlWord.rxConfirm = confirm side := by
    rw [pulseAction, if_neg (by decide), if_neg (by decide)]
  rw [acted, action]
  exact ⟨rfl, .behind charged (amid_confirm side _)⟩

end Link

end BlockLink
