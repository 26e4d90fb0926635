import BlockLink.Proofs.Bus

/-!
Laws of runs.

A law relates a state, the events reported from it on and the state that follows.
A law of the link that chains, and that every elementary change obeys, is obeyed
by every operation apart from loading a savestate, however the operation reaches
the link and however many deliveries it hides. A law that need not hold inside a
call is given call by call, and for each side by itself.
-/

namespace BlockLink

/-- A relation that doing nothing satisfies and that one step after another keeps. -/
structure Chains {State : Type} (law : State → List Event → State → Prop) : Prop where
  rest (state : State) : law state [] state
  next {first middle last : State} {before after : List Event} :
    law first before middle → law middle after last → law first (before ++ after) last

theorem chains_events {State : Type} (property : Event → Prop) :
    Chains fun (_ : State) events _ => ∀ event ∈ events, property event where
  rest _ := by simp
  next first second event member :=
    (List.mem_append.mp member).elim (first event) (second event)

def Step.Within {State α : Type} (law : State → List Event → State → Prop)
    (step : Step Event State α) : Prop :=
  ∀ state, law state (step.run state).events (step.run state).state

section Chaining

variable {State α β : Type} {law : State → List Event → State → Prop}

namespace Step

theorem within_pure (chains : Chains law) (value : α) :
    (pure value : Step Event State α).Within law :=
  fun state => chains.rest state

theorem within_observe (chains : Chains law) (view : State → α) :
    (observe view : Step Event State α).Within law :=
  fun state => chains.rest state

theorem within_skip (chains : Chains law) : (skip : Step Event State Unit).Within law :=
  fun state => chains.rest state

theorem within_bind (chains : Chains law) {first : Step Event State α}
    {second : α → Step Event State β} (obeysFirst : first.Within law)
    (obeysSecond : ∀ value, (second value).Within law) : (first >>= second).Within law :=
  fun state => chains.next (obeysFirst state) (obeysSecond _ _)

theorem within_answer (chains : Chains law) {step : Step Event State α} (obeys : step.Within law)
    (answer : α → β) : (step >>= fun value => pure (answer value)).Within law := by
  apply within_bind chains obeys
  intro value
  exact within_pure chains (answer value)

theorem within_map (chains : Chains law) {step : Step Event State α} (change : α → β)
    (obeys : step.Within law) : (change <$> step).Within law :=
  fun state => chains.next (obeys state) (chains.rest _)

end Step

theorem Program.within_run (chains : Chains law) {bus : Bus State}
    (reads : ∀ address, (bus.read address).Within law)
    (writes : ∀ address word, (bus.write address word).Within law) (program : Program α) :
    (program.run bus).Within law := by
  induction program with
  | answer value => exact fun state => chains.rest state
  | read address next inductionHypothesis =>
    rw [Program.run]
    apply Step.within_bind chains (reads address)
    intro answer
    cases answer with
    | ok word => exact inductionHypothesis word
    | error fault => exact Step.within_pure chains _
  | write address word next inductionHypothesis =>
    rw [Program.run]
    apply Step.within_bind chains (writes address word)
    intro _
    exact inductionHypothesis

namespace Watch

variable {watch : Watch State}

/-- The events of the polls so far are carried along, so the law is extended to the right. -/
theorem within_poll (chains : Chains law) (status : watch.status.Within law)
    (now : watch.now.Within law)
    (timedOut : ∀ flag expected spent,
      (Step.report (.waitTimedOut flag expected spent)).Within law)
    (aim : Aim) (start : Time) (more polls : Nat) (first state : State) (events : List Event)
    (sofar : law first events state) :
    law first (poll watch aim start more polls state events).events
      (poll watch aim start more polls state events).state := by
  have shown := chains.next sofar (status state)
  have clocked := chains.next shown (now _)
  have expired := chains.next clocked (timedOut aim.flag aim.expected
    (elapsed start (watch.now.run (watch.status.run state).state).value polls) _)
  induction more generalizing polls state events with
  | zero =>
    unfold poll
    dsimp only
    split
    · exact shown
    · split
      · exact shown
      · exact expired
  | succ more inductionHypothesis =>
    unfold poll
    dsimp only
    split
    · exact shown
    · split
      · exact shown
      · split
        · exact expired
        · have shownNext := chains.next clocked (status _)
          have clockedNext := chains.next shownNext (now _)
          exact inductionHypothesis _ _ _ clocked shownNext clockedNext
            (chains.next clockedNext (timedOut _ _ _ _))

theorem within_waitFor (chains : Chains law) (status : watch.status.Within law)
    (now : watch.now.Within law)
    (timedOut : ∀ flag expected spent,
      (Step.report (.waitTimedOut flag expected spent)).Within law)
    (aim : Aim) : (watch.waitFor aim).Within law :=
  fun state => within_poll chains status now timedOut aim _ _ _ state _ _ (now state)

end Watch

end Chaining

/-- An event that no change of the link stands behind. -/
def Event.IsRemark : Event → Prop
  | .station .. | .loaded .. | .crossed .. | .read .. | .linkReset => False
  | .reported .. | .waitTimedOut .. | .watermarkIgnored .. | .blockDropped ..
  | .windowUnreadable .. | .interruptRead .. | .writeOnlyRead .. | .unknownRead ..
  | .interruptWrite .. | .readOnlyWrite .. | .unknownWrite .. => True

def Event.IsDelivery : Event → Prop
  | .crossed .. | .station _ .finalArrived => True
  | .station .. | .loaded .. | .read .. | .linkReset | .reported .. | .waitTimedOut ..
  | .watermarkIgnored .. | .blockDropped .. | .windowUnreadable .. | .interruptRead ..
  | .writeOnlyRead .. | .unknownRead .. | .interruptWrite .. | .readOnlyWrite ..
  | .unknownWrite .. => False

/-- An event of anything but a load, a read or a reset. -/
def Event.IsQuiet : Event → Prop
  | .loaded .. | .read .. | .linkReset => False
  | .station .. | .crossed .. | .reported .. | .waitTimedOut .. | .watermarkIgnored ..
  | .blockDropped .. | .windowUnreadable .. | .interruptRead .. | .writeOnlyRead ..
  | .unknownRead .. | .interruptWrite .. | .readOnlyWrite .. | .unknownWrite .. => True

/-- Loading a savestate replaces the link by one with a history of its own. -/
def Operation.Restores : Operation → Prop
  | .restore _ => True
  | .call .. | .readRegister .. | .writeRegister .. | .advance _ | .reset | .reportStatus _ => False

instance (operation : Operation) : Decidable operation.Restores :=
  match operation with
  | .restore _ => .isTrue trivial
  | .call .. | .readRegister .. | .writeRegister .. | .advance _ | .reset | .reportStatus _ =>
    .isFalse id

/-- Whether a call is there to move a block on or off the link. -/
def Command.Transfers : Command → Prop
  | .load _ | .read => True
  | .setWatermark .. | .openMessage | .closeMessage | .confirm | .status | .now
  | .waitFor _ => False

namespace Link

/-- Close the message of a side and place its boundary, before anything is delivered. -/
def finish (side : Side) : Step Event Link Unit := do
  let hasBlocks ← atStation side Station.closeMessage
  if hasBlocks then placeBoundary side

/-- Queue a block, before anything is delivered. -/
def enqueue (side : Side) (block : Block) : Step Event Link (Except Refusal Unit) := do
  let readyAt ← Step.observe fun link => link.time.after link.config.linkLatency
  match ← atStation side (Station.load block readyAt) with
  | .ok () =>
    Step.report (.loaded side block)
    return .ok ()
  | .error refusal => return .error refusal

/-- Take the oldest received block, before anything is delivered. -/
def dequeue (side : Side) : Step Event Link (Except Refusal Block) := do
  match ← atStation side Station.read with
  | .ok block =>
    Step.report (.read side block)
    return .ok block
  | .error refusal => return .error refusal

/-- A law that the passing of time and the deliveries that follow obey. -/
structure Passage (law : Link → List Event → Link → Prop) : Prop extends Chains law where
  elapse (cycles : Time) :
    (Step.update fun link : Link => { link with time := link.time.after cycles }).Within law
  deliver (sender : Side) : (deliver sender).Within law

/-- A law that is obeyed by everything that moves no block on or off the link by hand. -/
structure Framing (law : Link → List Event → Link → Prop) : Prop extends Passage law where
  setWatermark (side : Side) (queue : Queue) (level : UInt64) :
    (setWatermark side queue level).Within law
  openMessage (side : Side) : (openMessage side).Within law
  finish (side : Side) : (finish side).Within law
  confirm (side : Side) : (atStation side Station.confirm).Within law
  remark (event : Event) (isRemark : event.IsRemark) : (Step.report event).Within law

structure Loading (law : Link → List Event → Link → Prop) : Prop extends Framing law where
  stage (side : Side) (position : Fin 4) (word : UInt32) : (stage side position word).Within law
  enqueue (side : Side) (block : Block) : (enqueue side block).Within law

structure Reading (law : Link → List Event → Link → Prop) : Prop extends Framing law where
  dequeue (side : Side) : (dequeue side).Within law

/-- A law that every elementary change of a link obeys. -/
structure Law (law : Link → List Event → Link → Prop) : Prop
    extends Loading law, Reading law where
  reset : reset.Within law

/-- A law that an access obeys which does nothing but let time pass. -/
structure Ticking (law : Link → List Event → Link → Prop) : Prop extends Chains law where
  charge : charge.Within law
  remark (event : Event) (isRemark : event.IsRemark) : (Step.report event).Within law

/-- A law that a side obeys, call by call, as long as it neither moves a block by hand nor
confirms a boundary. -/
structure TendingBy (side : Side) (law : Link → List Event → Link → Prop) : Prop
    extends Ticking law where
  setWatermark (queue : Queue) (level : UInt64) : (setWatermark side queue level).Within law
  openMessage : (openMessage side).Within law
  closeMessage : (closeMessage side).Within law

/-- A law that a side obeys, call by call, as long as it moves no block by hand. -/
structure FramingBy (side : Side) (law : Link → List Event → Link → Prop) : Prop
    extends TendingBy side law where
  confirm : (confirm side).Within law

structure LoadingBy (side : Side) (law : Link → List Event → Link → Prop) : Prop
    extends Ticking law where
  stage (position : Fin 4) (word : UInt32) : (stage side position word).Within law
  load (block : Block) : (load side block).Within law

structure ReadingBy (side : Side) (law : Link → List Event → Link → Prop) : Prop
    extends Ticking law where
  read : (read side).Within law

/-- A law that a side obeys whatever it does. Calls are taken as a whole, so that it need not
hold before what they deliver has crossed. -/
structure ConductBy (side : Side) (law : Link → List Event → Link → Prop) : Prop
    extends FramingBy side law, LoadingBy side law, ReadingBy side law

/-- A law that both sides obey whatever they do, and that the link obeys by itself. -/
structure Conduct (law : Link → List Event → Link → Prop) : Prop where
  conductBy (side : Side) : ConductBy side law
  advance (cycles : Time) : (advance cycles).Within law
  reset : reset.Within law

theorem closeMessage_eq (side : Side) :
    closeMessage side = (do finish side; settle : Step Event Link Unit) := by
  rw [closeMessage, finish, bind_assoc]
  congr 1
  funext hasBlocks
  cases hasBlocks with
  | false => rfl
  | true => rfl

theorem load_eq (side : Side) (block : Block) :
    load side block = (do
      match ← enqueue side block with
      | .ok () => settle; return .ok ()
      | .error refusal => return .error refusal : Step Event Link (Except Refusal Unit)) := by
  rw [load, enqueue, bind_assoc]
  congr 1
  funext readyAt
  rw [bind_assoc]
  congr 1
  funext answer
  cases answer with
  | ok => rfl
  | error refusal => rfl

theorem read_eq (side : Side) :
    read side = (do
      match ← dequeue side with
      | .ok block => settle; return .ok block
      | .error refusal => return .error refusal : Step Event Link (Except Refusal Block)) := by
  rw [read, dequeue, bind_assoc]
  congr 1
  funext answer
  cases answer with
  | ok block => rfl
  | error refusal => rfl

def pulse (field : Field) (word : UInt32) (action : Step Event Link Unit) : Step Event Link Unit :=
  if field.isSet word then action else Step.skip

/-- What the pulses of a control write do. -/
def pulses (side : Side) (word : UInt32) : Step Event Link Unit := do
  pulse ControlWord.txEnd word (closeMessage side)
  pulse ControlWord.txTrigger word (openMessage side)
  pulse ControlWord.rxConfirm word (confirm side)

theorem writeControl_eq (side : Side) (word : UInt32) :
    writeControl side word = (do
      charge
      writeWatermark side .transmit word
      writeWatermark side .receive word
      pulses side word : Step Event Link Unit) := by
  unfold writeControl pulses pulse
  cases ControlWord.txEnd.isSet word <;> cases ControlWord.txTrigger.isSet word <;> rfl

/-- What a control write does before it confirms a boundary. -/
def tend (side : Side) (word : UInt32) : Step Event Link Unit := do
  charge
  writeWatermark side .transmit word
  writeWatermark side .receive word
  pulse ControlWord.txEnd word (closeMessage side)
  pulse ControlWord.txTrigger word (openMessage side)

theorem writeControl_eq_tend (side : Side) (word : UInt32) :
    writeControl side word = (do
      tend side word
      pulse ControlWord.rxConfirm word (confirm side) : Step Event Link Unit) := by
  simp only [writeControl_eq, pulses, tend, bind_assoc]

theorem run_charge (link : Link) :
    charge.run link = (advance link.config.accessCycles).run link := by
  unfold Step.run
  rfl

section Operations

variable {law : Link → List Event → Link → Prop} {side : Side}

namespace Passage

variable (passage : Passage law)
include passage

theorem settle : settle.Within law := by
  apply Step.within_bind passage.toChains
  · exact passage.deliver .left
  · intro _
    exact passage.deliver .right

theorem advance (cycles : Time) : (advance cycles).Within law := by
  apply Step.within_bind passage.toChains
  · exact passage.elapse cycles
  · intro _
    exact passage.settle

theorem charge : charge.Within law := by
  intro link
  rw [run_charge]
  exact passage.advance link.config.accessCycles link

end Passage

namespace Ticking

variable (obeyed : Ticking law) (side : Side)
include obeyed

theorem charged {α : Type} {step : Step Event Link α} (obeys : step.Within law) :
    (do Link.charge; step : Step Event Link α).Within law := by
  apply Step.within_bind obeyed.toChains
  · exact obeyed.charge
  · intro _
    exact obeys

theorem readStatus : (readStatus side).Within law :=
  obeyed.charged (Step.within_observe obeyed.toChains _)

theorem readControl : (readControl side).Within law :=
  obeyed.charged (Step.within_observe obeyed.toChains _)

theorem showData (position : Fin 4) (shown : Except Refusal Block) :
    (showData side position shown).Within law := by
  cases shown with
  | ok block => exact Step.within_pure obeyed.toChains _
  | error refusal =>
    exact Step.within_answer obeyed.toChains (obeyed.remark (.windowUnreadable _ _) trivial) _

/-- The words before the last one are read without a change. -/
theorem readEarly {position : Fin 4} (early : position ≠ 3) :
    (readData side position).Within law := by
  apply obeyed.charged
  simp only [early, if_false]
  apply Step.within_bind obeyed.toChains (Step.within_observe obeyed.toChains _)
  intro shown
  exact obeyed.showData side position shown

theorem readRegister (address : UInt32)
    (data : ∀ position, Register.ofAddress? address = some (.readData position) →
      (readData side position).Within law) : (readRegister side address).Within law := by
  have blank : ∀ event : Event, event.IsRemark → (readRegister.blank event).Within law := by
    intro event isRemark
    apply obeyed.charged
    exact Step.within_answer obeyed.toChains (obeyed.remark event isRemark) _
  unfold Link.readRegister
  split
  next => exact Step.within_map obeyed.toChains _ (obeyed.readStatus side)
  next => exact obeyed.readControl side
  next position found => exact Step.within_map obeyed.toChains _ (data position found)
  all_goals exact blank _ trivial

theorem status : (Endpoint.status side).Within law :=
  obeyed.charged (Step.within_observe obeyed.toChains _)

theorem driverStatus : (Driver.status.run (bus side)).Within law := by
  rw [Driver.status, Driver.statusWord, Program.run_bind, Program.run_readWord, read_bus,
    readRegister_status]
  apply Step.within_bind obeyed.toChains
  · exact Step.within_map obeyed.toChains _ (obeyed.readStatus side)
  · intro shown
    cases shown <;> exact Step.within_pure obeyed.toChains _

theorem reportStatus : (reportStatus side).Within law := by
  have half : ∀ label queue status, (Step.report (.reported label queue status)).Within law := by
    intro label queue status
    exact obeyed.remark _ trivial
  intro link
  exact obeyed.next (half _ .transmit _ link) (half _ .receive _ link)

theorem callNow (route : Route) : (call route side .now).Within law := by
  cases route <;> exact Step.within_answer obeyed.toChains (Step.within_observe obeyed.toChains _) _

theorem callWait (route : Route) (aim : Watch.Aim) :
    (call route side (.waitFor aim)).Within law := by
  have chains := obeyed.toChains
  have timedOut : ∀ flag expected spent,
      (Step.report (.waitTimedOut flag expected spent)).Within law :=
    fun flag expected spent => obeyed.remark _ trivial
  cases route with
  | direct =>
    apply Step.within_answer chains
    apply Watch.within_waitFor chains _ (Step.within_observe chains _) timedOut
    exact Step.within_map chains _ (obeyed.status side)
  | registers =>
    apply Step.within_answer chains
    apply Watch.within_waitFor chains _ (Step.within_observe chains _) timedOut
    exact obeyed.driverStatus side

end Ticking

theorem within_pulse (chains : Chains law) (field : Field) (word : UInt32)
    {action : Step Event Link Unit} (obeys : action.Within law) :
    (pulse field word action).Within law := by
  unfold pulse
  split
  · exact obeys
  · exact Step.within_skip chains

namespace TendingBy

variable (obeyed : TendingBy side law)
include obeyed

theorem writeWatermark (queue : Queue) (word : UInt32) :
    (writeWatermark side queue word).Within law := by
  apply Step.within_bind obeyed.toChains (obeyed.setWatermark queue _)
  intro answer
  cases answer with
  | ok => exact Step.within_skip obeyed.toChains
  | error refusal => exact obeyed.remark _ trivial

theorem tend (word : UInt32) : (tend side word).Within law := by
  apply obeyed.charged
  apply Step.within_bind obeyed.toChains (obeyed.writeWatermark .transmit word)
  intro _
  apply Step.within_bind obeyed.toChains (obeyed.writeWatermark .receive word)
  intro _
  apply Step.within_bind obeyed.toChains (within_pulse obeyed.toChains _ word obeyed.closeMessage)
  intro _
  exact within_pulse obeyed.toChains _ word obeyed.openMessage

/-- A control write may confirm a boundary as well, and obeys if the confirmation does. -/
theorem writeControl {word : UInt32}
    (confirms : (pulse ControlWord.rxConfirm word (Link.confirm side)).Within law) :
    (writeControl side word).Within law := by
  rw [writeControl_eq_tend]
  apply Step.within_bind obeyed.toChains (obeyed.tend word)
  intro _
  exact confirms

end TendingBy

namespace FramingBy

variable (obeyed : FramingBy side law)
include obeyed

theorem writeControl (word : UInt32) : (writeControl side word).Within law :=
  obeyed.toTendingBy.writeControl (within_pulse obeyed.toChains _ word obeyed.confirm)

theorem updateControl (field : Field) (value : Nat) :
    ((Driver.updateControl field value).run (bus side)).Within law := by
  rw [Driver.updateControl, Program.run_bind, Program.run_readWord, read_bus,
    readRegister_control]
  apply Step.within_bind obeyed.toChains (obeyed.readControl side)
  intro shown
  cases shown with
  | ok word =>
    simp only [Program.run_writeWord, write_bus, writeRegister_control]
    exact Step.within_map obeyed.toChains _ (obeyed.writeControl _)
  | error fault => exact Step.within_pure obeyed.toChains _

theorem endpoint (command : Command) (still : ¬ command.Transfers) :
    (Endpoint.perform side command).Within law := by
  have chains := obeyed.toChains
  cases command with
  | load | read => exact absurd trivial still
  | setWatermark queue level =>
    exact Step.within_answer chains (obeyed.charged (obeyed.setWatermark queue level)) _
  | openMessage => exact Step.within_answer chains (obeyed.charged obeyed.openMessage) _
  | closeMessage => exact Step.within_answer chains (obeyed.charged obeyed.closeMessage) _
  | confirm => exact Step.within_answer chains (obeyed.charged obeyed.confirm) _
  | status => exact Step.within_answer chains (obeyed.status side) _
  | now => exact obeyed.callNow side .direct
  | waitFor aim => exact obeyed.callWait side .direct aim

theorem driver (command : Command) (still : ¬ command.Transfers) :
    (Driver.perform (bus side) command).Within law := by
  have chains := obeyed.toChains
  cases command with
  | load | read => exact absurd trivial still
  | setWatermark queue level =>
    apply Step.within_answer chains
    unfold Driver.setWatermark
    split
    · rw [Program.run_bind]
      apply Step.within_bind chains (obeyed.updateControl _ _)
      intro shown
      cases shown <;> exact Step.within_pure chains _
    · exact Step.within_pure chains _
  | openMessage | closeMessage | confirm =>
    exact Step.within_answer chains (obeyed.updateControl _ _) _
  | status => exact Step.within_answer chains (obeyed.driverStatus side) _
  | now => exact obeyed.callNow side .registers
  | waitFor aim => exact obeyed.callWait side .registers aim

theorem call (route : Route) (command : Command) (still : ¬ command.Transfers) :
    (call route side command).Within law := by
  cases route with
  | direct => exact obeyed.endpoint command still
  | registers => exact obeyed.driver command still

end FramingBy

theorem LoadingBy.commit (obeyed : LoadingBy side law) : (commit side).Within law := by
  apply Step.within_bind obeyed.toChains (Step.within_observe obeyed.toChains _)
  intro block
  apply Step.within_bind obeyed.toChains (obeyed.load block)
  intro answer
  cases answer with
  | ok => exact Step.within_skip obeyed.toChains
  | error refusal => exact obeyed.remark _ trivial

theorem LoadingBy.writeData (obeyed : LoadingBy side law) (position : Fin 4) (word : UInt32) :
    (writeData side position word).Within law := by
  apply obeyed.charged
  apply Step.within_bind obeyed.toChains (obeyed.stage position word)
  intro _
  by_cases last : position = 3
  · simp only [last, if_true]
    exact obeyed.commit
  · simp only [last, if_false]
    exact Step.within_pure obeyed.toChains _

theorem within_writeRegister (tending : TendingBy side law) (loading : LoadingBy side law)
    {address word : UInt32}
    (confirms : Register.ofAddress? address = some .control →
      (pulse ControlWord.rxConfirm word (Link.confirm side)).Within law) :
    (writeRegister side address word).Within law := by
  have ignore : ∀ event : Event, event.IsRemark → (writeRegister.ignore event).Within law := by
    intro event isRemark
    exact tending.charged (tending.remark event isRemark)
  unfold writeRegister
  split
  next found => exact tending.writeControl (confirms found)
  next => exact loading.writeData _ word
  all_goals exact ignore _ trivial

theorem FramingBy.writeRegister (framing : FramingBy side law) (loading : LoadingBy side law)
    (address word : UInt32) : (writeRegister side address word).Within law :=
  within_writeRegister framing.toTendingBy loading fun _ =>
    within_pulse framing.toChains _ word framing.confirm

namespace ReadingBy

variable (obeyed : ReadingBy side law)
include obeyed

theorem readData (position : Fin 4) : (readData side position).Within law := by
  by_cases last : position = 3
  · apply obeyed.charged
    simp only [last, if_true]
    apply Step.within_bind obeyed.toChains obeyed.read
    intro shown
    exact obeyed.showData side 3 shown
  · exact obeyed.readEarly side last

theorem readRegister (address : UInt32) : (readRegister side address).Within law :=
  obeyed.toTicking.readRegister side address fun position _ => obeyed.readData position

end ReadingBy

namespace ConductBy

variable (obeyed : ConductBy side law)
include obeyed

theorem writeRegister (address word : UInt32) : (writeRegister side address word).Within law :=
  obeyed.toFramingBy.writeRegister obeyed.toLoadingBy address word

theorem program {α : Type} (program : Program α) : (program.run (bus side)).Within law :=
  Program.within_run obeyed.toChains obeyed.readRegister obeyed.writeRegister program

theorem call (route : Route) (command : Command) : (call route side command).Within law := by
  have chains := obeyed.toChains
  by_cases still : command.Transfers
  · cases command with
    | load block =>
      cases route with
      | direct => exact Step.within_answer chains (obeyed.charged (obeyed.load block)) _
      | registers => exact Step.within_answer chains (obeyed.program _) _
    | read =>
      cases route with
      | direct => exact Step.within_answer chains (obeyed.charged obeyed.read) _
      | registers => exact Step.within_answer chains (obeyed.program _) _
    | setWatermark | openMessage | closeMessage | confirm | status | now | waitFor =>
      exact absurd still id
  · exact obeyed.toFramingBy.call route command still

end ConductBy

theorem within_performAll (chains : Chains law) (operations : List Operation)
    (obey : ∀ operation ∈ operations, (perform operation).Within law) :
    (performAll operations).Within law := by
  induction operations with
  | nil => exact Step.within_pure chains _
  | cons operation rest inductionHypothesis =>
    apply Step.within_bind chains
    · exact obey operation (by simp)
    · intro answer
      apply Step.within_answer chains
      apply inductionHypothesis
      intro later member
      exact obey later (by simp [member])

namespace Conduct

variable (obeyed : Conduct law)
include obeyed

theorem perform (operation : Operation) (fresh : ¬ operation.Restores) :
    (perform operation).Within law := by
  have chains := (obeyed.conductBy .left).toChains
  cases operation with
  | call route side command =>
    exact Step.within_map chains _ ((obeyed.conductBy side).call route command)
  | readRegister side address =>
    exact Step.within_map chains _ ((obeyed.conductBy side).readRegister address)
  | writeRegister side address word =>
    exact Step.within_answer chains ((obeyed.conductBy side).writeRegister address word) _
  | advance cycles => exact Step.within_answer chains (obeyed.advance cycles) _
  | reset => exact Step.within_answer chains obeyed.reset _
  | reportStatus side =>
    exact Step.within_answer chains ((obeyed.conductBy side).reportStatus side) _
  | restore bytes => exact absurd trivial fresh

theorem performAll (operations : List Operation)
    (fresh : ∀ operation ∈ operations, ¬ operation.Restores) :
    (performAll operations).Within law := by
  apply within_performAll (obeyed.conductBy .left).toChains
  intro operation member
  exact obeyed.perform operation (fresh operation member)

end Conduct

theorem Framing.framingBy (obeyed : Framing law) (side : Side) : FramingBy side law where
  toChains := obeyed.toChains
  charge := obeyed.charge
  remark := obeyed.remark
  setWatermark := obeyed.setWatermark side
  openMessage := obeyed.openMessage side
  closeMessage := by
    rw [closeMessage_eq]
    exact Step.within_bind obeyed.toChains (obeyed.finish side) fun _ => obeyed.settle
  confirm := Step.within_bind obeyed.toChains (obeyed.confirm side) fun _ => obeyed.settle

theorem Loading.loadingBy (obeyed : Loading law) (side : Side) : LoadingBy side law where
  toTicking := (obeyed.toFraming.framingBy side).toTicking
  stage := obeyed.stage side
  load block := by
    rw [load_eq]
    apply Step.within_bind obeyed.toChains (obeyed.enqueue side block)
    intro answer
    cases answer with
    | ok => exact Step.within_answer obeyed.toChains obeyed.settle _
    | error refusal => exact Step.within_pure obeyed.toChains _

theorem Reading.readingBy (obeyed : Reading law) (side : Side) : ReadingBy side law where
  toTicking := (obeyed.toFraming.framingBy side).toTicking
  read := by
    rw [read_eq]
    apply Step.within_bind obeyed.toChains (obeyed.dequeue side)
    intro answer
    cases answer with
    | ok block => exact Step.within_answer obeyed.toChains obeyed.settle _
    | error refusal => exact Step.within_pure obeyed.toChains _

namespace Framing

variable (obeyed : Framing law)
include obeyed

theorem call (route : Route) (side : Side) (command : Command) (still : ¬ command.Transfers) :
    (call route side command).Within law :=
  (obeyed.framingBy side).call route command still

theorem reportStatus (side : Side) : (reportStatus side).Within law :=
  (obeyed.framingBy side).reportStatus side

end Framing

theorem Loading.writeRegister (obeyed : Loading law) (side : Side) (address word : UInt32) :
    (writeRegister side address word).Within law :=
  (obeyed.toFraming.framingBy side).writeRegister (obeyed.loadingBy side) address word

theorem Reading.readRegister (obeyed : Reading law) (side : Side) (address : UInt32) :
    (readRegister side address).Within law :=
  (obeyed.readingBy side).readRegister address

namespace Law

variable (obeyed : Law law)
include obeyed

theorem conduct : Conduct law where
  conductBy side :=
    { obeyed.toFraming.framingBy side, obeyed.toLoading.loadingBy side,
      obeyed.toReading.readingBy side with }
  advance := obeyed.advance
  reset := obeyed.reset

theorem call (route : Route) (side : Side) (command : Command) :
    (call route side command).Within law :=
  (obeyed.conduct.conductBy side).call route command

theorem perform (operation : Operation) (fresh : ¬ operation.Restores) :
    (perform operation).Within law :=
  obeyed.conduct.perform operation fresh

theorem performAll (operations : List Operation)
    (fresh : ∀ operation ∈ operations, ¬ operation.Restores) :
    (performAll operations).Within law :=
  obeyed.conduct.performAll operations fresh

end Law

end Operations

/-- A step that is made of elementary changes. -/
def Lawful {α : Type} (step : Step Event Link α) : Prop := ∀ law, Law law → step.Within law

theorem lawful_call (route : Route) (side : Side) (command : Command) :
    Lawful (call route side command) :=
  fun _ obeyed => obeyed.call route side command

theorem lawful_advance (cycles : Time) : Lawful (advance cycles) :=
  fun _ obeyed => obeyed.advance cycles

end Link

end BlockLink
