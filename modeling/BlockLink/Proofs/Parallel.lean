import Mathlib.Data.List.Forall2
import BlockLink.Proofs.Conservation
import BlockLink.Proofs.Fault
import BlockLink.Proofs.Lockstep

/-!
Calls, operations and runs on two links side by side.

A call goes on in lockstep as its accesses do. The register driver writes back what it has read
from CTRL, and that may differ in the watermarks. It makes no difference to what the word asks
for, as long as there is a word: a watermark that does not fit breaks the call off.
-/

namespace BlockLink

namespace Watch

variable {pairing : Pairing} {watch otherWatch : Watch Link}
  (status : watch.status.Lockstep pairing Eq otherWatch.status)
  (now : watch.now.Lockstep pairing Eq otherWatch.now)
include status now

theorem akin_poll (aim : Aim) (start : Time) (more polls : Nat) {link other : Link}
    (akin : link.Akin pairing other) (events otherEvents : List Event) :
    (poll watch aim start more polls link events).Akin pairing Eq
      (poll otherWatch aim start more polls other otherEvents) := by
  have shown := status akin
  have clocked := now shown.state
  induction more generalizing polls link other events otherEvents with
  | zero =>
    unfold poll
    simp only [← shown.value, ← clocked.value]
    cases (watch.status.run link).value with
    | error fault => exact ⟨rfl, shown.state⟩
    | ok given =>
      dsimp only
      split
      · exact ⟨rfl, shown.state⟩
      · exact ⟨rfl, clocked.state⟩
  | succ more inductionHypothesis =>
    unfold poll
    simp only [← shown.value, ← clocked.value]
    cases (watch.status.run link).value with
    | error fault => exact ⟨rfl, shown.state⟩
    | ok given =>
      dsimp only
      split
      · exact ⟨rfl, shown.state⟩
      · split
        · exact ⟨rfl, clocked.state⟩
        · have shownNext := status clocked.state
          exact inductionHypothesis _ clocked.state _ _ shownNext (now shownNext.state)

theorem lockstep_waitFor (aim : Aim) :
    (watch.waitFor aim).Lockstep pairing Eq (otherWatch.waitFor aim) := by
  intro link other akin
  have clocked := now akin
  unfold Step.run waitFor
  dsimp only
  rw [← clocked.value]
  exact akin_poll status now aim _ _ _ clocked.state _ _

end Watch

namespace Link

variable {pairing : Pairing} {link other : Link} (side : Side)

theorem lockstep_endpointSetWatermark (queue : Queue) {level otherLevel : UInt64}
    (same : pairing.strict → otherLevel = level) :
    (Endpoint.perform side (.setWatermark queue level)).Lockstep pairing
      (fun answer otherAnswer => otherLevel = level → answer = otherAnswer)
      (Endpoint.perform (pairing.across side) (.setWatermark queue otherLevel)) := by
  apply (lockstep_charged (lockstep_setWatermark side queue same)).bind
  intro answer otherAnswer agree
  apply Step.Lockstep.value
  intro sameLevel
  rw [agree sameLevel]

theorem lockstep_endpoint (command : Command) :
    (Endpoint.perform side command).Lockstep pairing Eq
      (Endpoint.perform (pairing.across side) command) := by
  cases command with
  | setWatermark queue level =>
    intro link other akin
    have same : pairing.strict → level = level := fun _ => rfl
    have done := lockstep_endpointSetWatermark side queue same akin
    exact ⟨done.value rfl, done.state⟩
  | openMessage => exact (lockstep_charged (lockstep_openMessage side)).answer _
  | closeMessage => exact (lockstep_charged (lockstep_closeMessage side)).answer _
  | confirm => exact (lockstep_charged (lockstep_confirm side)).answer _
  | load block => exact (lockstep_charged (lockstep_load side block)).answer _
  | read => exact (lockstep_charged (lockstep_read side)).answer _
  | status => exact (lockstep_status side).answer _
  | now => exact lockstep_now.answer _
  | waitFor aim =>
    have shown : (Endpoint.watch side).status.Lockstep pairing Eq
        (Endpoint.watch (pairing.across side)).status :=
      .mapEq _ (lockstep_status side)
    exact (Watch.lockstep_waitFor shown lockstep_now aim).answer _

/-- Whether reads of CTRL on both links agree, or fail on neither. -/
def Legible (pairing : Pairing) (link other : Link) (side : Side) : Prop :=
  pairing.strict ∨ (link.station side).overflow? = none ∧
    (other.station (pairing.across side)).overflow? = none

theorem Akin.controlWord (akin : link.Akin pairing other) {side : Side}
    (legible : Legible pairing link other side) :
    ControlWord.ShownAkin pairing (link.station side).controlWord
      (other.station (pairing.across side)).controlWord := by
  by_cases strict : pairing.strict
  · rw [akin.station_of_strict strict]
    cases (link.station side).controlWord with
    | ok word => exact .word ⟨fun _ _ => rfl, fun _ => rfl⟩
    | error fault => exact .fault fault
  · have shows {station : Station} (fits : station.overflow? = none) :
        ∃ word, station.controlWord = .ok word := by
      rw [← Station.fault?_controlWord] at fits
      cases shown : station.controlWord with
      | ok word => exact ⟨word, rfl⟩
      | error fault =>
        rw [shown] at fits
        cases fits
    obtain ⟨fits, otherFits⟩ := legible.resolve_left strict
    obtain ⟨word, shown⟩ := shows fits
    obtain ⟨otherWord, otherShown⟩ := shows otherFits
    rw [shown, otherShown]
    refine .word ⟨fun pulse isPulse => ?_, fun isStrict => absurd isStrict strict⟩
    rw [Station.silent_of_controlWord shown pulse isPulse,
      Station.silent_of_controlWord otherShown pulse isPulse]

theorem run_updateControl_eq (field : Field) (value : Nat) :
    (Driver.updateControl field value).run (bus side) = (do
      match ← readControl side with
      | .ok word => Except.ok <$> writeControl side (field.put word value)
      | .error fault => return .error fault : Step Event Link (Except Fault Unit)) := by
  rw [Driver.updateControl, Program.run_bind, Program.run_readWord, read_bus,
    readRegister_control]
  congr 1
  funext shown
  cases shown with
  | ok word =>
    dsimp only
    rw [Program.run_writeWord, write_bus, writeRegister_control]
  | error fault => rfl

theorem Akin.updateControl (akin : link.Akin pairing other) {side : Side}
    (legible : Legible pairing link other side) {field : Field}
    (isField : field ∈ ControlWord.fields) (value : Nat) :
    (((Driver.updateControl field value).run (bus side)).run link).Akin pairing Eq
      (((Driver.updateControl field value).run (bus (pairing.across side))).run other) := by
  have charged := (lockstep_charge akin).state
  have shown : ((readControl side).run link).Akin pairing (ControlWord.ShownAkin pairing)
      ((readControl (pairing.across side)).run other) := by
    refine ⟨charged.controlWord ?_, charged⟩
    rw [Legible, overflow?_charge, overflow?_charge]
    exact legible
  rw [run_updateControl_eq, run_updateControl_eq]
  apply shown.bind
  intro shown otherShown agree
  cases agree with
  | word words => exact .mapEq _ (lockstep_writeControl side (words.put isField value))
  | fault fault => exact .value rfl

theorem Akin.driver (akin : link.Akin pairing other) {side : Side} {command : Command}
    (legible : command.Acts → Legible pairing link other side) :
    ((Driver.perform (bus side) command).run link).Akin pairing Eq
      ((Driver.perform (bus (pairing.across side)) command).run other) := by
  cases command with
  | setWatermark queue level =>
    by_cases valid : WatermarkValid level
    · have isField : ControlWord.watermark queue ∈ ControlWord.fields := by
        cases queue <;> decide
      have updated := akin.updateControl (legible valid) isField level.toNat
      rw [Driver.perform, Driver.perform, Driver.setWatermark, if_pos valid, Program.run_bind,
        Program.run_bind]
      refine (updated.bind ?_).answer _
      rintro (fault | answer) _ rfl
      · exact .value rfl
      · exact .value rfl
    · rw [Driver.perform, Driver.perform, Driver.setWatermark, if_neg valid, Program.run_pure,
        Program.run_pure]
      exact ⟨rfl, akin⟩
  | openMessage | closeMessage | confirm =>
    exact (akin.updateControl (legible trivial) (by decide) 1).answer _
  | load block => exact (lockstep_driverLoad side block akin).answer _
  | read => exact (lockstep_driverRead side akin).answer _
  | status => exact (lockstep_driverStatus side akin).answer _
  | now => exact (lockstep_now akin).answer _
  | waitFor aim =>
    have shown : (Driver.watch (bus side)).status.Lockstep pairing Eq
        (Driver.watch (bus (pairing.across side))).status :=
      lockstep_driverStatus side
    exact (Watch.lockstep_waitFor shown lockstep_now aim akin).answer _

end Link

/-- Whether an operation is done to two links side by side. Watermarks may be given differently
unless they have to agree. -/
inductive Operation.Paired (pairing : Pairing) : Operation → Operation → Prop where
  | call (route : Route) (side : Side) (command : Command) :
      Paired pairing (.call route side command) (.call route (pairing.across side) command)
  | setWatermark (side : Side) (queue : Queue) {level other : UInt64} :
      (pairing.strict → other = level) →
      Paired pairing (.call .direct side (.setWatermark queue level))
        (.call .direct (pairing.across side) (.setWatermark queue other))
  | readRegister (side : Side) (address : UInt32) :
      Paired pairing (.readRegister side address) (.readRegister (pairing.across side) address)
  | writeRegister (side : Side) (address word : UInt32) :
      Paired pairing (.writeRegister side address word)
        (.writeRegister (pairing.across side) address word)
  | writeControl (side : Side) {word other : UInt32} :
      ControlWord.Akin pairing word other →
      Paired pairing (.writeRegister side Register.control.address word)
        (.writeRegister (pairing.across side) Register.control.address other)
  | advance (cycles : Time) : Paired pairing (.advance cycles) (.advance cycles)
  | reset : Paired pairing .reset .reset
  | reportStatus (side : Side) :
      Paired pairing (.reportStatus side) (.reportStatus (pairing.across side))
  /-- A savestate holds both sides, so they have to stay where they are. -/
  | restore (bytes : List UInt8) :
      (∀ side, pairing.across side = side) → Paired pairing (.restore bytes) (.restore bytes)

/-- Whether an answer shows watermarks: the model tells whether it took a level, and CTRL shows
the levels that it has. -/
def Operation.ShowsWatermarks : Operation → Prop
  | .call .direct _ (.setWatermark ..) => True
  | .readRegister _ address => address = Register.control.address
  | .call .. | .writeRegister .. | .advance _ | .reset | .reportStatus _ | .restore _ => False

instance : (operation : Operation) → Decidable operation.ShowsWatermarks
  | .call .direct _ (.setWatermark ..) => .isTrue trivial
  | .readRegister _ address => inferInstanceAs (Decidable (address = Register.control.address))
  | .call .registers .. | .writeRegister .. | .advance _ | .reset | .reportStatus _
  | .restore _ => .isFalse id
  | .call .direct _ .openMessage | .call .direct _ .closeMessage | .call .direct _ .confirm
  | .call .direct _ (.load _) | .call .direct _ .read | .call .direct _ .status
  | .call .direct _ .now | .call .direct _ (.waitFor _) => .isFalse id

namespace Link

variable {pairing : Pairing} {link other : Link}

theorem lockstep_reset : reset.Lockstep pairing Eq reset := by
  intro link other akin
  rw [run_reset_of_accepted akin.accepted.1, run_reset_of_accepted akin.accepted.2]
  refine ⟨rfl, ?_⟩
  exact
    { lane := fun sender => by rw [lane_idle, lane_idle]
      staged := fun side => by simp [idle]
      time := akin.time
      watermark := fun strict side queue => by
        rw [akin.config strict]
        simp [station, idle]
      accepted := akin.accepted
      settings := akin.settings
      config := akin.config }

theorem lockstep_restore {bytes : List UInt8} (straight : ∀ side, pairing.across side = side) :
    (restore bytes).Lockstep pairing Eq (restore bytes) := by
  intro link other akin
  cases read : Savestate.snapshot.read bytes with
  | error malformed =>
    rw [link.run_restore_of_error read, other.run_restore_of_error read]
    exact ⟨rfl, akin⟩
  | ok shown =>
    rw [link.run_restore_of_ok read, other.run_restore_of_ok read]
    refine ⟨rfl, ?_⟩
    exact
      { lane := fun sender => by rw [straight]; rfl
        staged := fun side => by rw [straight]
        time := rfl
        watermark := fun _ side queue => by rw [straight]; rfl
        accepted := akin.accepted
        settings := akin.settings
        config := akin.config }

/-- The same is answered, unless the answer shows watermarks that need not agree. -/
def Compared (pairing : Pairing) (operation : Operation) (answer otherAnswer : Answer) : Prop :=
  pairing.strict ∨ ¬ operation.ShowsWatermarks → answer = otherAnswer

/-- Two operations that are done side by side, unless a watermark that does not fit into CTRL
breaks one of them off. -/
theorem Akin.perform (akin : link.Akin pairing other) {operation otherOperation : Operation}
    (paired : operation.Paired pairing otherOperation)
    (unfailing : pairing.strict ∨ ((Link.perform operation).run link).value.fault? = none ∧
      ((Link.perform otherOperation).run other).value.fault? = none) :
    ((Link.perform operation).run link).Akin pairing (Compared pairing operation)
      ((Link.perform otherOperation).run other) := by
  have plain {operation otherOperation : Operation}
      (done : ((Link.perform operation).run link).Akin pairing Eq
        ((Link.perform otherOperation).run other)) :
      ((Link.perform operation).run link).Akin pairing (Compared pairing operation)
        ((Link.perform otherOperation).run other) :=
    ⟨fun _ => done.value, done.state⟩
  cases paired with
  | call route side command =>
    apply plain
    cases route with
    | direct => exact (lockstep_endpoint side command).mapEq _ akin
    | registers =>
      have driven : ((Driver.perform (bus side) command).run link).Akin pairing Eq
          ((Driver.perform (bus (pairing.across side)) command).run other) := by
        apply akin.driver
        intro acts
        rw [fault?_perform, fault?_perform, Operation.controlReader?, Operation.controlReader?,
          if_pos acts, if_pos acts] at unfailing
        exact unfailing
      exact ⟨congrArg Answer.ofReply driven.value, driven.state⟩
  | setWatermark side queue same =>
    have done := lockstep_endpointSetWatermark side queue same akin
    refine ⟨fun compared => ?_, done.state⟩
    have strict := compared.resolve_right fun hidden => hidden trivial
    exact congrArg Answer.ofReply (done.value (same strict))
  | readRegister side address =>
    have read := lockstep_readRegister side address akin
    exact ⟨fun compared => congrArg Answer.ofWord (read.value compared), read.state⟩
  | writeRegister side address word =>
    exact plain ((lockstep_writeRegister side address word akin).answer _)
  | writeControl side words =>
    apply plain
    rw [Link.perform, Link.perform, writeRegister_control, writeRegister_control]
    exact (lockstep_writeControl side words akin).answer _
  | advance cycles => exact plain ((lockstep_advance rfl akin).answer _)
  | reset => exact plain ((lockstep_reset akin).answer _)
  | reportStatus side =>
    have reported : (reportStatus side).Lockstep pairing Eq (reportStatus (pairing.across side)) :=
      .still (fun _ => rfl) fun _ => rfl
    exact plain ((reported akin).answer _)
  | restore bytes straight =>
    apply plain
    refine ((lockstep_restore straight).bindEq ?_) akin
    intro answer
    cases answer <;> exact .value rfl

end Link

/-- Whether two checkpoints hold links that are alike, and the same answer as far as it can be
compared. -/
structure Checkpoint.Akin (pairing : Pairing) (checkpoint other : Checkpoint) : Prop where
  operation : checkpoint.operation.Paired pairing other.operation
  answer : Link.Compared pairing checkpoint.operation checkpoint.answer other.answer
  link : checkpoint.link.Akin pairing other.link

namespace Link

variable {pairing : Pairing} {link other : Link}

/-- Whether no operation of a run is broken off. -/
def Unfailing (operations : List Operation) (link : Link) : Prop :=
  ∀ answer ∈ ((performAll operations).run link).value, answer.fault? = none

theorem Akin.checkpoints (akin : link.Akin pairing other)
    {operations otherOperations : List Operation}
    (paired : List.Forall₂ (Operation.Paired pairing) operations otherOperations)
    (unfailing : pairing.strict ∨ Unfailing operations link ∧ Unfailing otherOperations other) :
    List.Forall₂ (Checkpoint.Akin pairing) (Link.checkpoints operations link)
      (Link.checkpoints otherOperations other) := by
  induction paired generalizing link other with
  | nil => exact .nil
  | @cons operation otherOperation rest otherRest paired pairedRest inductionHypothesis =>
    have first : pairing.strict ∨ ((Link.perform operation).run link).value.fault? = none ∧
        ((Link.perform otherOperation).run other).value.fault? = none :=
      unfailing.imp_right fun ⟨sound, otherSound⟩ =>
        ⟨sound _ (List.mem_cons_self ..), otherSound _ (List.mem_cons_self ..)⟩
    have done := akin.perform paired first
    refine .cons ⟨paired, done.value, done.state⟩ (inductionHypothesis done.state ?_)
    exact unfailing.imp_right fun ⟨sound, otherSound⟩ =>
      ⟨fun later member => sound later (List.mem_cons_of_mem _ member),
        fun later member => otherSound later (List.mem_cons_of_mem _ member)⟩

end Link

end BlockLink
