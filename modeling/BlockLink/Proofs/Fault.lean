import BlockLink.Proofs.Checked
import BlockLink.Proofs.Hold

/-!
Faults.

A read of CTRL shows the watermarks in two bits each, and that is all that can fail. The
watermarks of a savestate are taken as they are, so bytes that no link has saved can bring
in one that does not fit; links that are left to themselves never hold one.
-/

namespace BlockLink

instance : (command : Command) → Decidable command.Acts
  | .openMessage | .closeMessage | .confirm => .isTrue trivial
  | .setWatermark _ level => inferInstanceAs (Decidable (WatermarkValid level))
  | .load _ | .read | .status | .now | .waitFor _ => .isFalse id

/-- The side whose CTRL register an operation reads. The driver reads it to write it back. -/
def Operation.controlReader? : Operation → Option Side
  | .call .registers side command => if command.Acts then some side else none
  | .readRegister side address => if address = Register.control.address then some side else none
  | .call .direct .. | .writeRegister .. | .advance _ | .reset | .reportStatus _ | .restore _ =>
    none

def Answer.fault? : Answer → Option Fault
  | fault raised => some raised
  | done | reply _ | word _ | malformed _ => none

namespace Station

/-- The watermark whose low eight bits do not fit into their field of CTRL, the transmit side
first. -/
def overflow? (station : Station) : Option Fault :=
  if 3 < station.txWatermark.toNat % 256 then some (.fieldOverflow ControlWord.txWatermark)
  else if 3 < station.rxWatermark.toNat % 256 then some (.fieldOverflow ControlWord.rxWatermark)
  else none

theorem fault?_controlWord (station : Station) :
    (Answer.ofWord station.controlWord).fault? = station.overflow? := by
  have limit : ControlWord.txWatermark.limit = 4 ∧ ControlWord.rxWatermark.limit = 4 := by decide
  rw [controlWord, overflow?]
  by_cases tx : 3 < station.txWatermark.toNat % 256
  · have tooLarge : ¬ station.txWatermark.toNat % 256 < ControlWord.txWatermark.limit := by omega
    rw [if_pos tx, Field.assign, if_neg tooLarge]
    rfl
  · rw [if_neg tx, Field.assign_of_lt _ (by omega : _ < ControlWord.txWatermark.limit)]
    change (Answer.ofWord (Field.assign ControlWord.rxWatermark _ _)).fault? = _
    by_cases rx : 3 < station.rxWatermark.toNat % 256
    · have tooLarge : ¬ station.rxWatermark.toNat % 256 < ControlWord.rxWatermark.limit := by
        omega
      rw [if_pos rx, Field.assign, if_neg tooLarge]
      rfl
    · rw [if_neg rx, Field.assign_of_lt _ (by omega : _ < ControlWord.rxWatermark.limit)]
      rfl

theorem Watermarked.overflow?_eq_none {station : Station} (valid : station.Watermarked) :
    station.overflow? = none := by
  have txBound : station.txWatermark.toNat < 4 := (valid .transmit).2
  have rxBound : station.rxWatermark.toNat < 4 := (valid .receive).2
  rw [overflow?, if_neg (by omega), if_neg (by omega)]

end Station

theorem Watch.exists_answer {State : Type} {watch : Watch State}
    (answers : ∀ state, ∃ status, (watch.status.run state).value = .ok status) (aim : Aim)
    (state : State) : ∃ answer, ((watch.waitFor aim).run state).value = .ok answer := by
  have polled (start : Time) (more polls : Nat) (state : State) (events : List Event) :
      ∃ answer, (poll watch aim start more polls state events).value = .ok answer := by
    induction more generalizing polls state events with
    | zero =>
      obtain ⟨status, shown⟩ := answers state
      unfold poll
      simp only [shown]
      split <;> exact ⟨_, rfl⟩
    | succ more inductionHypothesis =>
      obtain ⟨status, shown⟩ := answers state
      unfold poll
      simp only [shown]
      split
      · exact ⟨_, rfl⟩
      · split
        · exact ⟨_, rfl⟩
        · exact inductionHypothesis _ _ _
  exact polled _ _ _ _ _

namespace Link

variable (link : Link) (side : Side)

theorem overflow?_charge :
    ((charge.run link).state.station side).overflow? = (link.station side).overflow? := by
  have transmit := (aside_law.charge link).watermark side .transmit
  have receive := (aside_law.charge link).watermark side .receive
  change ((charge.run link).state.station side).txWatermark = _ at transmit
  change ((charge.run link).state.station side).rxWatermark = _ at receive
  rw [Station.overflow?, transmit, receive]
  rfl

theorem exists_waitFor (route : Route) (aim : Watch.Aim) :
    ∃ reply, ((call route side (.waitFor aim)).run link).value = .ok reply := by
  have answers (link : Link) : ∃ status, ((Endpoint.watch side).status.run link).value =
      .ok status :=
    ⟨_, rfl⟩
  obtain ⟨answer, answered⟩ := Watch.exists_answer answers aim link
  refine ⟨Reply.ofUnit answer, ?_⟩
  cases route with
  | direct =>
    rw [call, Endpoint.perform, Step.run_bind, answered]
    rfl
  | registers =>
    rw [call, Driver.perform, Step.run_bind, watch_bus, answered]
    rfl

theorem exists_directReply (command : Command) :
    ∃ reply, ((call .direct side command).run link).value = .ok reply := by
  by_cases isAccess : command.IsAccess
  · rw [run_directCall link side isAccess]
    exact ⟨_, rfl⟩
  · cases command with
    | now => exact ⟨_, rfl⟩
    | waitFor aim => exact exists_waitFor link side .direct aim
    | setWatermark | openMessage | closeMessage | confirm | load | read | status =>
      exact absurd trivial isAccess

/-- A call through the registers that does not update CTRL gives its reply. -/
theorem exists_registersReply {command : Command} (apart : ¬ command.Acts) :
    ∃ reply, ((call .registers side command).run link).value = .ok reply := by
  cases command with
  | setWatermark queue level =>
    rw [(callSetWatermark_of_invalid link side queue apart).1]
    exact ⟨_, rfl⟩
  | openMessage | closeMessage | confirm => exact absurd trivial apart
  | load block =>
    rcases run_callLoad .registers side link block with ⟨refused, -⟩ | ⟨done, -⟩
    · exact ⟨_, refused⟩
    · exact ⟨_, done⟩
  | read =>
    rw [call, Driver.perform, Step.run_bind, run_driverRead, Step.run_bind]
    cases ((Endpoint.status side).run link).value.refusal? <;> exact ⟨_, rfl⟩
  | status =>
    rw [run_callStatus]
    exact ⟨_, rfl⟩
  | now => exact ⟨_, rfl⟩
  | waitFor aim => exact exists_waitFor link side .registers aim

/-- An update of CTRL fails if the read of CTRL does that it begins with. -/
theorem fault?_updateControl (field : Field) (value : Nat) (reply : Unit → Reply) :
    (Answer.ofReply (reply <$> (((Driver.updateControl field value).run (bus side)).run
      link).value)).fault? = (link.station side).overflow? := by
  rw [← overflow?_charge, ← Station.fault?_controlWord, Driver.updateControl, Program.run_bind,
    Program.run_readWord, read_bus, readRegister_control, Step.run_bind, readControl,
    Step.run_bind, Step.run_observe]
  dsimp only
  cases ((charge.run link).state.station side).controlWord <;> rfl

theorem fault?_callActs {command : Command} (acts : command.Acts) :
    (Answer.ofReply ((call .registers side command).run link).value).fault? =
      (link.station side).overflow? := by
  cases command with
  | openMessage | closeMessage | confirm =>
    exact fault?_updateControl link side _ 1 fun _ => .done
  | setWatermark queue level =>
    have valid : WatermarkValid level := acts
    have updated := fault?_updateControl link side (ControlWord.watermark queue) level.toNat
      fun _ => .done
    rw [← updated, call, Driver.perform, Step.run_bind, Driver.setWatermark, if_pos valid,
      Program.run_bind, Step.run_bind]
    cases (((Driver.updateControl (ControlWord.watermark queue) level.toNat).run (bus side)).run
      link).value <;> rfl
  | load | read | status | now | waitFor => exact absurd acts id

theorem fault?_readRegister (address : UInt32) :
    (Answer.ofWord ((readRegister side address).run link).value).fault? =
      if address = Register.control.address then (link.station side).overflow? else none := by
  by_cases isControl : address = Register.control.address
  · subst isControl
    rw [if_pos rfl, readRegister_control, ← overflow?_charge, ← Station.fault?_controlWord]
    rfl
  · rw [if_neg isControl, readRegister]
    split
    next found => rfl
    next found => exact absurd (Register.eq_address_of_found found) isControl
    all_goals rfl

/-- An operation fails if and only if it reads a CTRL register with a watermark that does not
fit. -/
theorem fault?_perform (operation : Operation) :
    ((perform operation).run link).value.fault? =
      operation.controlReader?.bind fun side => (link.station side).overflow? := by
  cases operation with
  | call route side command =>
    cases route with
    | direct =>
      obtain ⟨reply, replied⟩ := exists_directReply link side command
      rw [perform, Step.run_map, replied]
      rfl
    | registers =>
      by_cases acts : command.Acts
      · rw [Operation.controlReader?, if_pos acts]
        exact fault?_callActs link side acts
      · obtain ⟨reply, replied⟩ := exists_registersReply link side acts
        rw [Operation.controlReader?, if_neg acts, perform, Step.run_map, replied]
        rfl
  | readRegister side address =>
    refine (fault?_readRegister link side address).trans ?_
    rw [Operation.controlReader?]
    split <;> rfl
  | writeRegister | advance | reset | reportStatus => rfl
  | restore bytes =>
    rw [perform, Step.run_bind]
    cases ((restore bytes).run link).value <;> rfl

/-- Nothing that a link does can be broken off: the checks that stand where something could go
wrong never fail. -/
structure Unbroken (link : Link) : Prop where
  load (side : Side) (block : Block) (readyAt : Time) :
    (link.station side).loadChecked block readyAt =
      .ok (((Station.load block readyAt).run (link.station side)).value,
        ((Station.load block readyAt).run (link.station side)).state)
  intake (sender : Side) :
    Station.intakeChecked link.time (link.station sender).tx.entries
        (link.station sender.peer) =
      .ok (Station.intake link.time (link.station sender).tx.entries (link.station sender.peer))
  statusWord (side : Side) : (link.status side).toWordChecked = .ok (link.status side).toWord
  waitFor (watch : Watch Link) (aim : Watch.Aim) :
    watch.waitForChecked aim link = .ok ((watch.waitFor aim).run link)

theorem unbroken : link.Unbroken where
  load side block readyAt := (link.station side).loadChecked_eq block readyAt
  intake _ := Station.intakeChecked_eq link.time _ _
  statusWord side := (link.status side).toWordChecked_eq
  waitFor watch aim := watch.waitForChecked_eq aim link

end Link

/-- What the registers are given always fits: a place in a data window has a word there, and the
driver writes fields with values that they hold. -/
structure Register.Unbroken : Prop where
  writeData {address : UInt32} {position : Fin 4} :
    ofAddress? address = some (.writeData position) →
      placeChecked (Register.writeData 0).address address = .ok position
  readData {address : UInt32} {position : Fin 4} :
    ofAddress? address = some (.readData position) →
      placeChecked (Register.readData 0).address address = .ok position
  pulse {field : Field} (word : UInt32) :
    field ∈ ControlWord.pulses → field.assign word 1 = .ok (field.put word 1)
  watermark (queue : Queue) {level : UInt64} (word : UInt32) :
    WatermarkValid level →
      (ControlWord.watermark queue).assign word level.toNat =
        .ok ((ControlWord.watermark queue).put word level.toNat)

theorem Register.unbroken : Register.Unbroken where
  writeData := placeChecked_of_writeData
  readData := placeChecked_of_readData
  pulse word isPulse := by
    have limit : ∀ field ∈ ControlWord.pulses, 1 < field.limit := by decide
    exact Field.assign_of_lt word (limit _ isPulse)
  watermark queue level word valid := by
    have limit : (ControlWord.watermark queue).limit = 4 := by cases queue <;> rfl
    exact Field.assign_of_lt word (limit ▸ valid.2)

/-- Savestates of links with a history lead to links with a history. -/
theorem History.exists_performAll (history : History) (operations : List Operation)
    (saved : ∀ bytes, .restore bytes ∈ operations → ∃ other : History, bytes = other.link.save) :
    (∃ later : History, later.link = ((Link.performAll operations).run history.link).state) ∧
      ∀ answer ∈ ((Link.performAll operations).run history.link).value, answer.fault? = none := by
  induction operations generalizing history with
  | nil => exact ⟨⟨history, rfl⟩, nofun⟩
  | cons operation rest inductionHypothesis =>
    have fits (side : Side) : (history.link.station side).overflow? = none :=
      (history.watermarked.2 side).overflow?_eq_none
    have unfailing : ((Link.perform operation).run history.link).value.fault? = none := by
      rw [Link.fault?_perform]
      cases operation.controlReader? with
      | none => rfl
      | some side => exact fits side
    have next : ∃ middle : History,
        middle.link = ((Link.perform operation).run history.link).state := by
      by_cases restores : operation.Restores
      · cases operation with
        | restore bytes =>
          obtain ⟨other, rfl⟩ := saved bytes (by simp)
          exact ⟨history.restored other, rfl⟩
        | call | readRegister | writeRegister | advance | reset | reportStatus =>
          exact absurd restores id
      · exact ⟨history.performed operation restores, rfl⟩
    obtain ⟨middle, reached⟩ := next
    obtain ⟨later, answers⟩ := inductionHypothesis middle fun bytes member =>
      saved bytes (by simp [member])
    rw [reached] at later answers
    exact ⟨later, List.forall_mem_cons.mpr ⟨unfailing, answers⟩⟩

/-- Whatever is done to a link and whatever bytes are loaded into it, its FIFOs keep their bound
and no operation fails, but for a read of CTRL while a watermark does not fit. It takes bytes
that no link has saved to get there. -/
theorem OpenRun.fails_only_reading_control (run : OpenRun) :
    (∀ side, (run.link.station side).tx.size ≤ 4 ∧ (run.link.station side).rx.size ≤ 4) ∧
    (∀ link : Link, link.Unbroken) ∧ Register.Unbroken ∧
    (∀ operation, ((Link.perform operation).run run.link).value.fault? =
      operation.controlReader?.bind fun side => (run.link.station side).overflow?) ∧
    ((∀ bytes, .restore bytes ∈ run.operations →
        ∃ history : History, bytes = history.link.save) →
      (∀ side queue, WatermarkValid ((run.link.station side).watermark queue)) ∧
      (∀ answer ∈ ((Link.performAll run.operations).run run.start).value, answer.fault? = none) ∧
      ∀ operation, ((Link.perform operation).run run.link).value.fault? = none) := by
  refine ⟨?_, Link.unbroken, Register.unbroken, Link.fault?_perform run.link, ?_⟩
  · intro side
    exact ⟨(run.link.station side).tx.size_le, (run.link.station side).rx.size_le⟩
  · intro saved
    obtain ⟨⟨later, reached⟩, answers⟩ :=
      (History.created run.config run.start run.created).exists_performAll run.operations saved
    have same : later.link = run.link := reached
    have valid := later.watermarked.2
    rw [same] at valid
    refine ⟨valid, answers, ?_⟩
    intro operation
    rw [Link.fault?_perform]
    cases operation.controlReader? with
    | none => rfl
    | some side => exact (valid side).overflow?_eq_none

/-- A watermark that nobody has set comes in with a savestate, and CTRL cannot show it. -/
example :
    let foreign := (Link.idle {} 0).withStation .left
      { Station.idle {} with rxWatermark := 0x1F07 }
    ((Link.performAll [.restore foreign.save, .call .registers .left .status,
      .call .registers .left .confirm]).run (Link.idle {} 0)).value.getLast? =
      some (.fault (.fieldOverflow ControlWord.rxWatermark)) := by
  decide +kernel

end BlockLink
