import BlockLink.Proofs.Conservation
import BlockLink.Proofs.Effect

/-!
The two directions of a link do not disturb each other.

A direction belongs to its sender, which opens, loads and closes, and to the peer,
which reads and confirms. Every call delivers in both directions, but once its
access is charged nothing is left to deliver in the direction that it does not work
on. There it is no more than the time that its access takes.
-/

namespace BlockLink

/-- Whether a call works on the direction from a sender to its peer. -/
def Command.WorksOn (sender caller : Side) : Command → Prop
  | .openMessage | .closeMessage | .load _ => caller = sender
  | .confirm | .read => caller = sender.peer
  | .setWatermark .. | .status | .now | .waitFor _ => False

instance (sender caller : Side) : (command : Command) → Decidable (command.WorksOn sender caller)
  | .openMessage | .closeMessage | .load _ => inferInstanceAs (Decidable (caller = sender))
  | .confirm | .read => inferInstanceAs (Decidable (caller = sender.peer))
  | .setWatermark .. | .status | .now | .waitFor _ => .isFalse id

namespace Operation

/-- Whether an operation is a call to the model other than a wait, or lets time pass. -/
def IsDirect : Operation → Prop
  | .call .direct _ command => command.IsAccess ∨ command = .now
  | .advance _ => True
  | .call .registers .. | .readRegister .. | .writeRegister .. | .reset | .reportStatus _
  | .restore _ => False

instance : (operation : Operation) → Decidable operation.IsDirect
  | .call .direct _ command => inferInstanceAs (Decidable (command.IsAccess ∨ command = .now))
  | .advance _ => .isTrue trivial
  | .call .registers .. | .readRegister .. | .writeRegister .. | .reset | .reportStatus _
  | .restore _ => .isFalse id

def WorksOn (sender : Side) : Operation → Prop
  | .call _ caller command => command.WorksOn sender caller
  | .readRegister .. | .writeRegister .. | .advance _ | .reset | .reportStatus _
  | .restore _ => False

instance (sender : Side) : (operation : Operation) → Decidable (operation.WorksOn sender)
  | .call _ caller command => inferInstanceAs (Decidable (command.WorksOn sender caller))
  | .readRegister .. | .writeRegister .. | .advance _ | .reset | .reportStatus _
  | .restore _ => .isFalse id

/-- The operation, or the time of its access in place of a call that works elsewhere. -/
def hushed (sender : Side) (cycles : Time) : Operation → Operation
  | .call route caller command =>
    if command.IsAccess ∧ ¬ command.WorksOn sender caller then .advance cycles
    else .call route caller command
  | operation => operation

theorem worksOn_hushed (sender : Side) (cycles : Time) (operation : Operation) :
    (operation.hushed sender cycles).WorksOn sender ↔ operation.WorksOn sender := by
  cases operation with
  | call route caller command =>
    by_cases hush : command.IsAccess ∧ ¬ command.WorksOn sender caller
    · rw [hushed, if_pos hush]
      exact ⟨False.elim, fun works => absurd works hush.2⟩
    · rw [hushed, if_neg hush]
  | readRegister | writeRegister | advance | reset | reportStatus | restore => rfl

theorem IsDirect.fresh {operation : Operation} (direct : operation.IsDirect) :
    ¬ operation.Restores := by
  intro restores
  cases operation with
  | restore => exact direct
  | call | readRegister | writeRegister | advance | reset | reportStatus => exact restores

end Operation

/-- What an operation of a run shows of a direction: the answer, if it works there, and the
lane afterwards. -/
def Checkpoint.glimpse (sender : Side) (checkpoint : Checkpoint) : Option Answer × Lane :=
  (if checkpoint.operation.WorksOn sender then some checkpoint.answer else none,
    checkpoint.link.lane sender)

/-- A run on a new link of calls to the model, with any time between them. -/
structure DirectRun where
  config : Config
  start : Link
  created : Link.create config = .ok start
  operations : List Operation
  direct : ∀ operation ∈ operations, operation.IsDirect

namespace Lane

variable {lane : Lane} {now readyAt : Time} {sender caller : Side} {command : Command}

theorem send_of_elsewhere (elsewhere : ¬ command.WorksOn sender sender) :
    lane.send now readyAt command = lane := by
  cases command with
  | openMessage | closeMessage | load => exact absurd rfl elsewhere
  | setWatermark | confirm | read | status | now | waitFor => rfl

theorem receive_of_elsewhere (elsewhere : ¬ command.WorksOn sender sender.peer) :
    lane.receive now command = lane := by
  cases command with
  | confirm | read => exact absurd rfl elsewhere
  | setWatermark | openMessage | closeMessage | load | status | now | waitFor => rfl

end Lane

namespace Link

/-- Whether two links are alike as far as the direction from a sender goes. -/
structure AlikeOn (sender : Side) (first second : Link) : Prop where
  lane : second.lane sender = first.lane sender
  time : second.time = first.time
  config : second.config = first.config

variable {sender caller : Side} {first second : Link} {command : Command}

theorem lane_effect_of_elsewhere (settled : first.Settled)
    (elsewhere : ¬ command.WorksOn sender caller) :
    ((effect caller command).run first).state.lane sender = first.lane sender := by
  rw [lane_effect caller command settled]
  rcases Side.self_or_peer sender caller with rfl | rfl
  · rw [if_pos rfl, Lane.send_of_elsewhere elsewhere]
  · rw [if_neg (Side.peer_ne sender), Lane.receive_of_elsewhere elsewhere]

namespace AlikeOn

theorem advance (alike : AlikeOn sender first second) (cycles : Time) :
    AlikeOn sender ((advance cycles).run first).state ((advance cycles).run second).state where
  lane := by rw [lane_advance, lane_advance, alike.lane, alike.time]
  time := congrArg (Time.after · cycles) alike.time
  config := alike.config

theorem charge (alike : AlikeOn sender first second) :
    AlikeOn sender (charge.run first).state (charge.run second).state := by
  rw [run_charge, run_charge, alike.config]
  exact alike.advance _

theorem effect (alike : AlikeOn sender first second) (settled : first.Settled)
    (settledSecond : second.Settled) :
    AlikeOn sender ((effect caller command).run first).state
      ((Link.effect caller command).run second).state where
  lane := by
    rw [lane_effect caller command settled, lane_effect caller command settledSecond,
      alike.lane, alike.time, alike.config]
  time := by rw [time_effect, time_effect, alike.time]
  config := by rw [config_effect, config_effect, alike.config]

/-- A call that works on a direction answers what the direction tells it to. -/
theorem value (alike : AlikeOn sender first second) (works : command.WorksOn sender caller) :
    ((Link.effect caller command).run second).value =
      ((Link.effect caller command).run first).value := by
  cases command with
  | openMessage | closeMessage | confirm => rfl
  | load block =>
    obtain rfl : caller = sender := works
    rw [Link.effect, Step.run_map, Step.run_map, value_load, value_load, alike.lane]
  | read =>
    obtain rfl : caller = sender.peer := works
    rw [Link.effect, Step.run_map, Step.run_map, value_read, value_read, peek_eq_lane,
      peek_eq_lane, Side.peer_peer, alike.lane]
  | setWatermark | status | now | waitFor => exact absurd works id

theorem elsewhere (settled : first.Settled) (elsewhere : ¬ command.WorksOn sender caller) :
    AlikeOn sender first ((Link.effect caller command).run first).state where
  lane := lane_effect_of_elsewhere settled elsewhere
  time := time_effect first caller command
  config := config_effect first caller command

theorem symm (alike : AlikeOn sender first second) : AlikeOn sender second first where
  lane := alike.lane.symm
  time := alike.time.symm
  config := alike.config.symm

theorem trans {third : Link} (before : AlikeOn sender first second)
    (after : AlikeOn sender second third) : AlikeOn sender first third where
  lane := after.lane.trans before.lane
  time := after.time.trans before.time
  config := after.config.trans before.config

end AlikeOn

/-- Calls that work on a direction keep two links alike there and answer the same. -/
theorem AlikeOn.call (alike : AlikeOn sender first second) (isAccess : command.IsAccess)
    (works : command.WorksOn sender caller) :
    let plain := (Link.call .direct caller command).run first
    let other := (Link.call .direct caller command).run second
    AlikeOn sender plain.state other.state ∧ other.value = plain.value := by
  have charged := alike.charge
  rw [run_directCall first caller isAccess, run_directCall second caller isAccess]
  exact ⟨charged.effect (settled_charge first) (settled_charge second),
    congrArg Except.ok (charged.value works)⟩

/-- A call that works elsewhere is for a direction the time of its access. -/
theorem AlikeOn.callElsewhere (alike : AlikeOn sender first second) (isAccess : command.IsAccess)
    (elsewhere : ¬ command.WorksOn sender caller) :
    AlikeOn sender ((Link.call .direct caller command).run first).state
      (Link.charge.run second).state := by
  rw [run_directCall first caller isAccess]
  exact (AlikeOn.elsewhere (settled_charge first) elsewhere).symm.trans alike.charge

/-- An operation and what is left of it without the calls that work elsewhere. -/
theorem AlikeOn.hushed (alike : AlikeOn sender first second) {operation : Operation}
    (direct : operation.IsDirect) {cycles : Time} (charges : first.config.accessCycles = cycles) :
    let plain := (perform operation).run first
    let hushed := (perform (operation.hushed sender cycles)).run second
    AlikeOn sender plain.state hushed.state ∧
      (operation.WorksOn sender → hushed.value = plain.value) := by
  cases operation with
  | call route caller command =>
    cases route with
    | registers => exact absurd direct id
    | direct =>
      by_cases hush : command.IsAccess ∧ ¬ command.WorksOn sender caller
      · have elsewhere := alike.callElsewhere hush.1 hush.2
        rw [run_charge, alike.config, charges] at elsewhere
        rw [Operation.hushed, if_pos hush]
        exact ⟨elsewhere, fun works => absurd works hush.2⟩
      · rw [Operation.hushed, if_neg hush]
        rcases direct with isAccess | rfl
        · have works : command.WorksOn sender caller :=
            Decidable.byContradiction fun elsewhere => hush ⟨isAccess, elsewhere⟩
          obtain ⟨kept, answered⟩ := alike.call isAccess works
          exact ⟨kept, fun _ => congrArg Answer.ofReply answered⟩
        · exact ⟨alike, fun works => absurd works id⟩
  | advance cycles => exact ⟨alike.advance cycles, fun works => absurd works id⟩
  | readRegister | writeRegister | reset | reportStatus | restore => exact absurd direct id

theorem glimpse_checkpoint (operation : Operation) (link : Link) :
    (checkpoint operation link).glimpse sender =
      let outcome := (perform operation).run link
      (if operation.WorksOn sender then some outcome.value else none,
        outcome.state.lane sender) :=
  rfl

theorem AlikeOn.glimpse (alike : AlikeOn sender first second) {operation : Operation}
    (direct : operation.IsDirect) {cycles : Time} (charges : first.config.accessCycles = cycles) :
    (checkpoint (operation.hushed sender cycles) second).glimpse sender =
      (checkpoint operation first).glimpse sender := by
  obtain ⟨kept, answered⟩ := alike.hushed direct charges
  have same := operation.worksOn_hushed sender cycles
  rw [glimpse_checkpoint, glimpse_checkpoint]
  dsimp only
  rw [kept.lane]
  by_cases works : operation.WorksOn sender
  · rw [if_pos (same.mpr works), if_pos works, answered works]
  · rw [if_neg (mt same.mp works), if_neg works]

/-- A run and what is left of it without the calls that work elsewhere. -/
theorem AlikeOn.checkpoints (alike : AlikeOn sender first second) (operations : List Operation)
    (direct : ∀ operation ∈ operations, operation.IsDirect) {cycles : Time}
    (charges : first.config.accessCycles = cycles) :
    (Link.checkpoints (operations.map (.hushed sender cycles)) second).map
        (Checkpoint.glimpse sender) =
      (Link.checkpoints operations first).map (Checkpoint.glimpse sender) := by
  induction operations generalizing first second with
  | nil => rfl
  | cons operation rest inductionHypothesis =>
    have isDirect := direct operation (by simp)
    have restDirect : ∀ later ∈ rest, later.IsDirect := by
      intro later member
      exact direct later (by simp [member])
    have stillCharges := congrArg Config.accessCycles
      (config_law.perform operation isDirect.fresh first)
    have later := inductionHypothesis (alike.hushed isDirect charges).1 restDirect
      (stillCharges.trans charges)
    rw [List.map_cons, Link.checkpoints, Link.checkpoints, List.map_cons, List.map_cons, later,
      alike.glimpse isDirect charges]

end Link

/-- The answers of a direction and what it holds after each step are the same if all calls
that work elsewhere are left out and only the time of their accesses passes. -/
theorem DirectRun.directions_independent (run : DirectRun) (sender : Side) :
    (Link.checkpoints (run.operations.map (.hushed sender run.config.accessCycles)) run.start).map
        (Checkpoint.glimpse sender) =
      (Link.checkpoints run.operations run.start).map (Checkpoint.glimpse sender) := by
  have config : run.start.config = run.config := by
    rw [(Link.create_eq_ok_iff.mp run.created).2]
    rfl
  have alike : Link.AlikeOn sender run.start run.start := ⟨rfl, rfl, rfl⟩
  exact alike.checkpoints run.operations run.direct (congrArg Config.accessCycles config)

/-- Both sides send and read. With an access of three cycles in place of each call for the message
to the left, those for the message to the right are answered as they were. -/
example :
    let config : Config := { linkLatency := 4, accessCycles := 3 }
    let forth : Block := ⟨1, 2, 3, 4⟩
    let back : Block := ⟨5, 6, 7, 8⟩
    let run : DirectRun := {
      config
      start := .idle config 0
      created := rfl
      operations :=
        [.call .direct .left .openMessage, .call .direct .right .openMessage,
          .call .direct .left (.load forth), .call .direct .right (.load back),
          .call .direct .left .closeMessage, .call .direct .left .read,
          .call .direct .right .read, .call .direct .left .status, .advance 1,
          .call .direct .right .confirm, .call .direct .right .closeMessage,
          .call .direct .left .confirm, .call .direct .right .read]
      direct := by decide }
    let answers (sender : Side) (operations : List Operation) : List Answer :=
      ((Link.checkpoints operations run.start).map (Checkpoint.glimpse sender)).filterMap Prod.fst
    let toRight : List Answer :=
      [.reply .done, .reply .done, .reply .done, .reply (.refused .blocked), .reply .done,
        .reply (.block forth)]
    answers .left run.operations = toRight ∧
      answers .left (run.operations.map (.hushed .left 3)) = toRight ∧
      answers .right run.operations =
        [.reply .done, .reply .done, .reply (.block back), .reply .done, .reply .done] := by
  decide +kernel

end BlockLink
