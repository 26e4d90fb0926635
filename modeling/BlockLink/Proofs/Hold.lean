import BlockLink.Proofs.Lasting
import BlockLink.Proofs.Refinement

/-!
Boundaries hold until they are confirmed.

When the end of a message is all that a side has received, everything behind it stays
with the peer, however many messages the peer opens, loads and closes and however much
time passes. The side itself cannot get past the end before it has confirmed it, and
once it has, the block is there for it to read. So one lane invariant serves before the
confirmation and behind it.
-/

namespace BlockLink

namespace Operation

/-- Whether an operation leaves the link its history. -/
def Continues : Operation → Prop
  | .call .. | .readRegister .. | .writeRegister .. | .advance _ | .reportStatus _ => True
  | .reset | .restore _ => False

/-- Whether an operation confirms the boundary of a side. -/
def Confirms (side : Side) : Operation → Prop
  | .call _ caller command => caller = side ∧ command = .confirm
  | .writeRegister caller address word =>
    caller = side ∧ Register.ofAddress? address = some .control ∧
      ControlWord.rxConfirm.isSet word = true
  | .readRegister .. | .advance _ | .reset | .reportStatus _ | .restore _ => False

/-- Whether an operation takes the oldest block of a side, if it may be read. -/
def Takes (side : Side) : Operation → Prop
  | .call _ caller command => caller = side ∧ command = .read
  | .readRegister caller address =>
    caller = side ∧ Register.ofAddress? address = some (.readData 3)
  | .writeRegister .. | .advance _ | .reset | .reportStatus _ | .restore _ => False

instance : (operation : Operation) → Decidable operation.Continues
  | .call .. | .readRegister .. | .writeRegister .. | .advance _ | .reportStatus _ =>
    .isTrue trivial
  | .reset | .restore _ => .isFalse id

instance (side : Side) : (operation : Operation) → Decidable (operation.Confirms side)
  | .call .. | .writeRegister .. => inferInstanceAs (Decidable (_ ∧ _))
  | .readRegister .. | .advance _ | .reset | .reportStatus _ | .restore _ => .isFalse id

instance (side : Side) : (operation : Operation) → Decidable (operation.Takes side)
  | .call .. | .readRegister .. => inferInstanceAs (Decidable (_ ∧ _))
  | .writeRegister .. | .advance _ | .reset | .reportStatus _ | .restore _ => .isFalse id

variable {operation : Operation}

theorem Continues.fresh (continues : operation.Continues) : ¬ operation.Restores := by
  cases operation with
  | restore => exact absurd continues id
  | call | readRegister | writeRegister | advance | reset | reportStatus => exact id

theorem Confirms.continues {side : Side} (confirms : operation.Confirms side) :
    operation.Continues := by
  cases operation with
  | call | writeRegister => trivial
  | readRegister | advance | reset | reportStatus | restore => exact absurd confirms id

end Operation

namespace Lane

/-- Whether the end of a message is all that has arrived, and nothing behind it has crossed: a
message that is open by now and holds a block has one that waits. -/
structure AtEnd (ending : Entry) (isPending : Bool) (lane : Lane) : Prop where
  arrived : lane.arrived = [ending]
  final : ending.final = true
  pending : lane.isPending = isPending
  behind : lane.isOpen = true → lane.isLoaded = true → lane.waiting ≠ []

namespace AtEnd

variable {lane : Lane} {ending : Entry} {isPending : Bool} (atEnd : lane.AtEnd ending isPending)
include atEnd

theorem holdsFinal : lane.HoldsFinal := by
  refine ⟨ending, ?_, atEnd.final⟩
  rw [atEnd.arrived]
  exact List.mem_singleton_self ending

theorem flow_eq (now : Time) : lane.flow now = lane :=
  flow_of_holdsFinal atEnd.holdsFinal now

theorem opened : lane.opened.AtEnd ending isPending := by
  unfold Lane.opened
  split
  · exact atEnd
  · exact { atEnd with behind := nofun }

theorem queued (block : Block) (readyAt : Time) :
    (lane.queued block readyAt).AtEnd ending isPending :=
  { atEnd with behind := fun _ _ => by simp [Lane.queued] }

/-- The message that ends now has its final block behind the one that has arrived. -/
theorem finished : lane.finished.AtEnd ending isPending := by
  unfold Lane.finished
  split
  next hasBlocks =>
    obtain ⟨isOpen, isLoaded⟩ := Bool.and_eq_true_iff.mp hasBlocks
    rw [if_neg (atEnd.behind isOpen isLoaded)]
    exact { atEnd with behind := nofun }
  next => exact { atEnd with behind := nofun }

theorem confirmed : lane.confirmed.AtEnd ending false :=
  { atEnd with pending := rfl }

theorem peek_eq :
    lane.peek = if isPending then .error .blocked else .ok ending.block := by
  rw [peek, atEnd.arrived, atEnd.pending]
  dsimp only
  rw [atEnd.final, Bool.true_and]

end AtEnd

theorem lasting_atEnd (ending : Entry) (isPending : Bool) : Lasting (AtEnd ending isPending) where
  flow now atEnd := by
    rw [atEnd.flow_eq]
    exact atEnd
  opened atEnd := atEnd.opened
  queued block readyAt atEnd := atEnd.queued block readyAt

end Lane

/-- Behind the end of a message, nothing of the next one has crossed. -/
theorem Ledger.Agrees.atEnd {ledger : Ledger} {lane : Lane} {passed : List Frame} {ending : Entry}
    (agrees : ledger.Agrees lane passed) (arrived : lane.arrived = [ending])
    (final : ending.final = true) : lane.AtEnd ending lane.isPending where
  arrived := arrived
  final := final
  pending := rfl
  behind _ isLoaded allCrossed := by
    obtain ⟨-, noFinal⟩ := agrees.free (agrees.loaded.mp isLoaded) allCrossed
    exact noFinal ⟨ending, by simp [arrived], final⟩

namespace Link

/-- A law that the peer of a side obeys whatever it does, and the side as long as it neither
confirms a boundary nor takes a block. -/
structure Standing (side : Side) (law : Link → List Event → Link → Prop) : Prop
    extends TendingBy side law, LoadingBy side law where
  peer : ConductBy side.peer law
  advance (cycles : Time) : (advance cycles).Within law

section Calls

variable {law : Link → List Event → Link → Prop} {side : Side}

theorem LoadingBy.callLoad (obeyed : LoadingBy side law) (route : Route) (block : Block) :
    (call route side (.load block)).Within law := by
  have chains := obeyed.toChains
  cases route with
  | direct => exact Step.within_answer chains (obeyed.charged (obeyed.load block)) _
  | registers =>
    apply Step.within_answer chains
    rw [run_driverLoad]
    apply Step.within_bind chains (obeyed.status side)
    intro status
    split
    · apply Step.within_answer chains
      refine Step.within_bind chains (obeyed.writeData 0 _) fun _ => ?_
      refine Step.within_bind chains (obeyed.writeData 1 _) fun _ => ?_
      exact Step.within_bind chains (obeyed.writeData 2 _) fun _ => obeyed.writeData 3 _
    · exact Step.within_pure chains _

theorem ReadingBy.callRead (obeyed : ReadingBy side law) (route : Route) :
    (call route side .read).Within law := by
  have chains := obeyed.toChains
  cases route with
  | direct => exact Step.within_answer chains (obeyed.charged obeyed.read) _
  | registers =>
    apply Step.within_answer chains
    rw [run_driverRead]
    apply Step.within_bind chains (obeyed.status side)
    intro status
    cases status.refusal? with
    | some refusal => exact Step.within_pure chains _
    | none =>
      apply Step.within_answer chains
      refine Step.within_bind chains (obeyed.readData 0) fun _ => ?_
      refine Step.within_bind chains (obeyed.readData 1) fun _ => ?_
      refine Step.within_bind chains (obeyed.readData 2) fun _ => ?_
      exact Step.within_answer chains (obeyed.readData 3) _

/-- With watermarks that can be set, a call through the registers writes nothing but what it
is there to write. -/
theorem TendingBy.call (obeyed : TendingBy side law) (route : Route) {command : Command}
    (still : ¬ command.Transfers) {link : Link} (valid : (link.station side).Watermarked)
    (confirms : command = .confirm → (confirm side).Within law) :
    law link ((call route side command).run link).events
      ((call route side command).run link).state := by
  have charged := within_charges obeyed.toChains obeyed.charge route.accesses link
  cases command with
  | load | read => exact absurd trivial still
  | setWatermark queue level =>
    by_cases inRange : WatermarkValid level
    · rw [run_callSetWatermark route side link queue inRange valid]
      exact obeyed.next charged (obeyed.setWatermark queue level _)
    · obtain ⟨driven, direct⟩ := callSetWatermark_of_invalid link side queue inRange
      cases route with
      | direct =>
        rw [direct]
        exact obeyed.charge link
      | registers =>
        rw [driven]
        exact obeyed.rest link
  | openMessage =>
    rw [run_callPulse route side link .openMessage rfl valid]
    exact obeyed.next charged (obeyed.openMessage _)
  | closeMessage =>
    rw [run_callPulse route side link .closeMessage rfl valid]
    exact obeyed.next charged (obeyed.closeMessage _)
  | confirm =>
    rw [run_callPulse route side link .confirm rfl valid]
    exact obeyed.next charged (confirms rfl _)
  | status =>
    rw [run_callStatus]
    exact obeyed.charge link
  | now => exact obeyed.callNow side route link
  | waitFor aim => exact obeyed.callWait side route aim link

end Calls

/-- An operation that a law stands through obeys it, if what it does beyond tending does. -/
theorem Standing.perform {law : Link → List Event → Link → Prop} {side : Side}
    (standing : Standing side law) {operation : Operation} (continues : operation.Continues)
    (confirms : operation.Confirms side → (confirm side).Within law)
    (takes : operation.Takes side → (read side).Within law) {link : Link}
    (valid : (link.station side).Watermarked) :
    law link ((perform operation).run link).events ((perform operation).run link).state := by
  have chains := standing.toChains
  have answered {α β : Type} (step : Step Event Link α) (answer : α → β)
      (obeys : law link (step.run link).events (step.run link).state) :
      law link ((answer <$> step).run link).events ((answer <$> step).run link).state :=
    chains.next obeys (chains.rest _)
  cases operation with
  | call route caller command =>
    refine answered (call route caller command) Answer.ofReply ?_
    rcases Side.self_or_peer side caller with rfl | rfl
    · by_cases transfers : command.Transfers
      · cases command with
        | load block => exact standing.toLoadingBy.callLoad route block link
        | read =>
          have reading : ReadingBy caller law := ⟨standing.toTicking, takes ⟨rfl, rfl⟩⟩
          exact reading.callRead route link
        | setWatermark | openMessage | closeMessage | confirm | status | now | waitFor =>
          exact absurd transfers id
      · refine standing.toTendingBy.call route transfers valid ?_
        rintro rfl
        exact confirms ⟨rfl, rfl⟩
    · exact standing.peer.call route command link
  | readRegister caller address =>
    refine answered (readRegister caller address) Answer.ofWord ?_
    rcases Side.self_or_peer side caller with rfl | rfl
    · refine standing.toTicking.readRegister caller address ?_ link
      intro position found
      by_cases last : position = 3
      · subst last
        have reading : ReadingBy caller law := ⟨standing.toTicking, takes ⟨rfl, found⟩⟩
        exact reading.readData 3
      · exact standing.toTicking.readEarly caller last
    · exact standing.peer.readRegister address link
  | writeRegister caller address word =>
    refine answered (writeRegister caller address word) (fun _ => Answer.done) ?_
    rcases Side.self_or_peer side caller with rfl | rfl
    · refine within_writeRegister standing.toTendingBy standing.toLoadingBy ?_ link
      intro found
      unfold pulse
      split
      next isSet => exact confirms ⟨rfl, found, isSet⟩
      next => exact Step.within_skip chains
    · exact standing.peer.writeRegister address word link
  | advance cycles =>
    exact answered (Link.advance cycles) (fun _ => Answer.done) (standing.advance cycles link)
  | reportStatus caller =>
    exact answered (reportStatus caller) (fun _ => Answer.done)
      (standing.toTicking.reportStatus caller link)
  | reset | restore => exact absurd continues id

/-- An operation that confirms the boundary of a side tends before, and then confirms. -/
theorem exists_tending_of_confirms {side : Side} {operation : Operation}
    (confirms : operation.Confirms side) {link : Link} (valid : (link.station side).Watermarked) :
    ∃ before : Step Event Link Unit, (∀ law, TendingBy side law → before.Within law) ∧
      ((perform operation).run link).state =
        ((confirm side).run (before.run link).state).state := by
  cases operation with
  | call route caller command =>
    obtain ⟨rfl, rfl⟩ := confirms
    refine ⟨charges route.accesses, ?_, ?_⟩
    · intro law tending
      exact within_charges tending.toChains tending.charge route.accesses
    · have acted := run_callPulse route caller link .confirm rfl valid
      exact congrArg Outcome.state acted
  | writeRegister caller address word =>
    obtain ⟨rfl, found, isSet⟩ := confirms
    refine ⟨tend caller word, fun law tending => tending.tend word, ?_⟩
    have written : writeRegister caller address word = writeControl caller word := by
      rw [Register.eq_address_of_found found, writeRegister_control]
    rw [perform, written, writeControl_eq_tend, pulse, if_pos isSet]
    rfl
  | readRegister | advance | reset | reportStatus | restore => exact absurd confirms id

section AtEnd

variable {side : Side} {ending : Entry} {isPending : Bool} {link : Link}

/-- The end of a message stands through all that its sender does, and through all that its
receiver does short of confirming and reading. -/
theorem standing_atEnd (side : Side) (ending : Entry) (isPending : Bool) :
    Standing side fun link _ last =>
      (link.lane side.peer).AtEnd ending isPending →
        (last.lane side.peer).AtEnd ending isPending :=
  have lasting := Lane.lasting_atEnd ending isPending
  { Lane.tendingBy_of_flow side lasting.flow, Lane.loadingBy_of_flow side lasting.flow with
    peer := lasting.conductBy side.peer Lane.AtEnd.finished
    advance := fun cycles link atEnd => by
      rw [lane_advance]
      exact lasting.flow _ atEnd }

/-- A boundary that is confirmed already can be confirmed again, and a block that is held back
can be asked for. -/
theorem atEnd_perform (atEnd : (link.lane side.peer).AtEnd ending isPending)
    (valid : link.Watermarked) {operation : Operation} (continues : operation.Continues)
    (confirms : operation.Confirms side → isPending = false)
    (takes : operation.Takes side → isPending = true) :
    (((perform operation).run link).state.lane side.peer).AtEnd ending isPending := by
  refine (standing_atEnd side ending isPending).perform continues ?_ ?_ (valid.2 side) atEnd
  · intro asked link atEnd
    obtain rfl := confirms asked
    rw [lane_confirm_peer]
    exact (Lane.lasting_atEnd ending false).flow _ atEnd.confirmed
  · intro asked link atEnd
    obtain rfl := takes asked
    rw [run_read_of_error ((peek_eq_lane link side).trans atEnd.peek_eq)]
    exact atEnd

theorem atEnd_performAll (atEnd : (link.lane side.peer).AtEnd ending isPending)
    (valid : link.Watermarked) {operations : List Operation}
    (continues : ∀ operation ∈ operations, operation.Continues)
    (confirms : ∀ operation ∈ operations, operation.Confirms side → isPending = false)
    (takes : ∀ operation ∈ operations, operation.Takes side → isPending = true) :
    let last := ((performAll operations).run link).state
    last.Watermarked ∧ (last.lane side.peer).AtEnd ending isPending := by
  induction operations generalizing link with
  | nil => exact ⟨valid, atEnd⟩
  | cons operation rest inductionHypothesis =>
    rw [List.forall_mem_cons] at continues confirms takes
    apply inductionHypothesis _ _ continues.2 confirms.2 takes.2
    · exact atEnd_perform atEnd valid continues.1 confirms.1 takes.1
    · exact watermarks_law.perform operation continues.1.fresh link valid

/-- Once the boundary is confirmed, the end of the message is free to be read. -/
theorem atEnd_confirms (atEnd : (link.lane side.peer).AtEnd ending isPending)
    (valid : link.Watermarked) {operation : Operation} (confirms : operation.Confirms side) :
    (((perform operation).run link).state.lane side.peer).AtEnd ending false := by
  obtain ⟨before, within, state⟩ := exists_tending_of_confirms confirms (valid.2 side)
  have still := within _ (standing_atEnd side ending isPending).toTendingBy link atEnd
  rw [state, lane_confirm_peer]
  exact (Lane.lasting_atEnd ending false).flow _ still.confirmed

/-- What a side shows of the end of a message, whichever way it is asked. -/
theorem shown_atEnd (atEnd : (link.lane side.peer).AtEnd ending isPending) :
    (link.station side).rx.entries = [ending] ∧ (link.station side).Framed ∧
      (link.station side).peek = if isPending then .error .blocked else .ok ending.block := by
  have arrived : (link.station side).rx.entries = [ending] := by
    have arrived := atEnd.arrived
    rw [lane_peer] at arrived
    exact arrived
  refine ⟨arrived, ⟨?_, ?_⟩, (peek_eq_lane link side).trans atEnd.peek_eq⟩
  · simp [arrived]
  · simp [arrived, atEnd.final]

theorem value_callRead_atEnd (atEnd : (link.lane side.peer).AtEnd ending isPending)
    (route : Route) :
    ((call route side .read).run link).value =
      .ok (.ofBlock (if isPending then .error .blocked else .ok ending.block)) := by
  have charged := (standing_atEnd side ending isPending).charge link atEnd
  obtain ⟨-, framed, shown⟩ := shown_atEnd charged
  rw [value_callRead route side link framed, shown]

/-- While the end is held back, the status tells so. -/
theorem status_atEnd (atEnd : (link.lane side.peer).AtEnd ending isPending) :
    (link.status side).rxLast = isPending ∧ (link.status side).rxLevel = 1 := by
  have pending : (link.station side).boundaryPending = isPending := by
    have pending := atEnd.pending
    rw [lane_peer] at pending
    exact pending
  have size : (link.station side).rx.size = 1 :=
    congrArg List.length (shown_atEnd atEnd).1
  exact ⟨pending, size⟩

end AtEnd

end Link

namespace History

theorem atEnd_of_blocked (history : History) {side : Side}
    (blocked : ((Link.read side).run history.link).value = .error .blocked) :
    ∃ ending, (history.link.lane side.peer).AtEnd ending true := by
  rw [Link.value_read] at blocked
  have framed := history.framed side
  obtain ⟨isPending, single⟩ := framed.peek_eq_blocked_iff.mp blocked
  obtain ⟨ending, shape⟩ := List.length_eq_one_iff.mp single
  have final : ending.final = true := framed.pending isPending ending (by simp [shape])
  obtain ⟨log, follows⟩ := history.follows
  obtain ⟨passed, agrees⟩ := follows.agrees side.peer
  have laneShape : history.link.lane side.peer =
      .between (history.link.station side.peer) (history.link.station side) :=
    Link.lane_peer history.link side
  have arrived : (history.link.lane side.peer).arrived = [ending] := by
    simp [laneShape, Lane.between, shape]
  have atEnd := agrees.atEnd arrived final
  have pending : (history.link.lane side.peer).isPending = true := by
    simp [laneShape, Lane.between, isPending]
  rw [pending] at atEnd
  exact ⟨ending, atEnd⟩

/-- A side that may not read past the end of a message may not do so until it has confirmed
it, whatever both sides do meanwhile; and once it has, the block is there whenever it is read
next. -/
theorem blocked_until_confirmed (history : History) (side : Side)
    (blocked : ((Link.read side).run history.link).value = .error .blocked)
    (operations : List Operation)
    (unconfirmed : ∀ operation ∈ operations,
      operation.Continues ∧ ¬ operation.Confirms side) :
    let later := ((Link.performAll operations).run history.link).state
    ((Link.read side).run later).value = .error .blocked ∧
    (∀ route, ((Link.call route side .read).run later).value = .ok (.refused .blocked)) ∧
    (∀ position, ((Link.readRegister side (Register.readData position).address).run later).value =
      .ok 0) ∧
    (later.station side).rx = (history.link.station side).rx ∧
    ((later.status side).rxLast = true ∧ (later.status side).rxLevel = 1) ∧
    (∀ route, ∃ status,
      ((Link.call route side .status).run later).value = .ok (.status status) ∧
        status.rxLast = true ∧ status.rxLevel = 1) ∧
    ∃ block, (later.station side).rx.blocks = [block] ∧
      ∀ confirmation : Operation, confirmation.Confirms side →
        ∀ others : List Operation,
          (∀ operation ∈ others, operation.Continues ∧ ¬ operation.Takes side) →
          let confirmed := ((Link.performAll (confirmation :: others)).run later).state
          ((Link.read side).run confirmed).value = .ok block ∧
          ∀ route, ((Link.call route side .read).run confirmed).value = .ok (.block block) := by
  intro later
  obtain ⟨ending, atEnd⟩ := history.atEnd_of_blocked blocked
  obtain ⟨valid, held⟩ := Link.atEnd_performAll atEnd history.watermarked
    (fun operation member => (unconfirmed operation member).1)
    (fun operation member confirms => absurd confirms (unconfirmed operation member).2)
    fun _ _ _ => rfl
  obtain ⟨entries, -, shown⟩ := Link.shown_atEnd held
  have charged := (Link.standing_atEnd side ending true).charge later held
  have same : (later.station side).rx = (history.link.station side).rx :=
    Fifo.ext (entries.trans (Link.shown_atEnd atEnd).1.symm)
  refine ⟨(Link.value_read side later).trans shown, Link.value_callRead_atEnd held, ?_, same,
    Link.status_atEnd held, ?_, ending.block, ?_, ?_⟩
  · intro position
    rw [Link.readRegister_readData, Step.run_map,
      Link.run_readData_of_error (Link.shown_atEnd charged).2.2]
  · intro route
    rw [Link.run_callStatus]
    exact ⟨_, rfl, Link.status_atEnd charged⟩
  · rw [Fifo.blocks, entries]
    rfl
  · intro confirmation confirms others untaken confirmed
    have freed := Link.atEnd_confirms held valid confirms
    have validFreed : ((Link.perform confirmation).run later).state.Watermarked :=
      Link.watermarks_law.perform confirmation confirms.continues.fresh later valid
    obtain ⟨-, free⟩ := Link.atEnd_performAll freed validFreed
      (fun operation member => (untaken operation member).1)
      (fun _ _ _ => rfl)
      fun operation member takes => absurd takes (untaken operation member).2
    exact ⟨(Link.value_read side confirmed).trans (Link.shown_atEnd free).2.2,
      Link.value_callRead_atEnd free⟩

/-- The peer goes on with its next message, and the clock with the time. -/
theorem blocked_until_confirmed_beside_next_message :
    let first : Block := ⟨1, 2, 3, 4⟩
    let second : Block := ⟨5, 6, 7, 8⟩
    let history := (created {} (.idle {} 0) rfl).extended
      [.call .direct .left .openMessage, .call .registers .left (.load first),
        .call .direct .left .closeMessage] (by decide)
    let operations : List Operation :=
      [.call .direct .left .openMessage, .call .direct .left (.load second),
        .call .registers .right .read, .advance 100, .call .direct .left .closeMessage]
    let later := ((Link.performAll operations).run history.link).state
    ((Link.read .right).run history.link).value = .error .blocked ∧
    ((Link.call .registers .right .read).run later).value = .ok (.refused .blocked) ∧
    (later.station .left).tx.blocks = [second] := by
  intro first second history operations later
  have blocked : ((Link.read .right).run history.link).value = .error .blocked := by
    rw [Link.value_read, (history.framed .right).peek_eq_blocked_iff]
    decide +kernel
  have unconfirmed : ∀ operation ∈ operations,
      operation.Continues ∧ ¬ operation.Confirms .right := by
    decide +kernel
  obtain ⟨-, refused, -⟩ := history.blocked_until_confirmed .right blocked operations unconfirmed
  exact ⟨blocked, refused .registers, by decide +kernel⟩

end History

end BlockLink
