import BlockLink.Proofs.Boundary
import BlockLink.Proofs.Call

/-!
Conservation of blocks.

The blocks that a side accepted for loading are those that its peer has read, then
those that the peer has received, then those that still wait. What was accepted
and read is told by the answers of the calls; an access to the data window has no
answer of its own and reports instead.
-/

namespace BlockLink

namespace Event

def loadedOn? (side : Side) : Event → Option Block
  | .loaded source block => if source = side then some block else none
  | .station .. | .crossed .. | .read .. | .linkReset | .reported .. | .waitTimedOut ..
  | .watermarkIgnored .. | .blockDropped .. | .windowUnreadable .. | .interruptRead ..
  | .writeOnlyRead .. | .unknownRead .. | .interruptWrite .. | .readOnlyWrite ..
  | .unknownWrite .. => none

def readOn? (side : Side) : Event → Option Block
  | .read target block => if target = side then some block else none
  | .station .. | .loaded .. | .crossed .. | .linkReset | .reported .. | .waitTimedOut ..
  | .watermarkIgnored .. | .blockDropped .. | .windowUnreadable .. | .interruptRead ..
  | .writeOnlyRead .. | .unknownRead .. | .interruptWrite .. | .readOnlyWrite ..
  | .unknownWrite .. => none

end Event

/-- One operation of a run, with its answer and what it reported. -/
structure Record where
  operation : Operation
  answer : Answer
  events : List Event

namespace Record

/-- The blocks that an operation got accepted for loading on a side. -/
def accepted (side : Side) (record : Record) : List Block :=
  match record.operation with
  | .call _ caller (.load block) =>
    if caller = side ∧ record.answer = .reply .done then [block] else []
  | .writeRegister .. => record.events.filterMap (Event.loadedOn? side)
  | _ => []

/-- The blocks that an operation took on a side. -/
def taken (side : Side) (record : Record) : List Block :=
  match record.operation, record.answer with
  | .call _ caller .read, .reply (.block block) => if caller = side then [block] else []
  | .readRegister .., _ => record.events.filterMap (Event.readOn? side)
  | _, _ => []

/-- Add what an operation moved. A reset starts over. -/
def add (moved : Record → List Block) (blocks : List Block) (record : Record) : List Block :=
  if record.operation = .reset then [] else blocks ++ moved record

def since (moved : Record → List Block) (records : List Record) : List Block :=
  records.foldl (add moved) []

end Record

namespace Link

def record (operation : Operation) (link : Link) : Record :=
  let outcome := (perform operation).run link
  ⟨operation, outcome.value, outcome.events⟩

def records : List Operation → Link → List Record
  | [], _ => []
  | operation :: rest, link =>
    record operation link :: records rest ((perform operation).run link).state

end Link

/-- One operation of a run with its record and the link that it left. -/
structure Checkpoint extends Record where
  link : Link

namespace Link

def checkpoint (operation : Operation) (link : Link) : Checkpoint :=
  { record operation link with link := ((perform operation).run link).state }

def checkpoints : List Operation → Link → List Checkpoint
  | [], _ => []
  | operation :: rest, link =>
    checkpoint operation link :: checkpoints rest ((perform operation).run link).state

end Link

def Run.records (run : Run) : List Record := Link.records run.operations run.start

namespace Ledger

theorem loaded_close (ledger : Ledger) : ledger.close.loaded = ledger.loaded := by
  unfold close
  split
  · rfl
  · simp [loaded]

theorem transfers_note (sender : Side) (ledger : Ledger) {event : Event}
    (notReset : event ≠ .linkReset) :
    (ledger.note sender event).loaded =
        ledger.loaded ++ (event.loadedOn? sender).toList ∧
      (ledger.note sender event).read =
        ledger.read ++ (event.readOn? sender.peer).toList := by
  cases event with
  | linkReset => exact absurd rfl notReset
  | station side change =>
    cases change with
    | messageClosed =>
      by_cases own : side = sender <;>
        simp [note, own, loaded_close, Event.loadedOn?, Event.readOn?]
    | boundaryMarked | finalArrived | boundaryConfirmed =>
      by_cases own : side = sender.peer <;>
        simp [note, own, loaded, Event.loadedOn?, Event.readOn?]
    | messageOpened => simp [note, Event.loadedOn?, Event.readOn?]
  | loaded side block =>
    by_cases own : side = sender <;> simp [note, own, loaded, Event.loadedOn?, Event.readOn?]
  | crossed side block =>
    by_cases own : side = sender <;> simp [note, own, loaded, Event.loadedOn?, Event.readOn?]
  | read side block =>
    by_cases own : side = sender.peer <;> simp [note, own, loaded, Event.loadedOn?, Event.readOn?]
  | reported | waitTimedOut | watermarkIgnored | blockDropped | windowUnreadable | interruptRead
  | writeOnlyRead | unknownRead | interruptWrite | readOnlyWrite | unknownWrite =>
    simp [note, Event.loadedOn?, Event.readOn?]

/-- Without a reset, what was loaded and read is added up. -/
theorem transfers_noteAll (sender : Side) (ledger : Ledger) {events : List Event}
    (noReset : .linkReset ∉ events) :
    (ledger.noteAll sender events).loaded =
        ledger.loaded ++ events.filterMap (Event.loadedOn? sender) ∧
      (ledger.noteAll sender events).read =
        ledger.read ++ events.filterMap (Event.readOn? sender.peer) := by
  induction events generalizing ledger with
  | nil => simp
  | cons event events inductionHypothesis =>
    have later := inductionHypothesis (ledger.note sender event) fun member =>
      noReset (List.mem_cons_of_mem _ member)
    have first := transfers_note sender ledger fun same : event = .linkReset =>
      noReset (by simp [same])
    have consed : ∀ pick : Event → Option Block,
        (event :: events).filterMap pick = (pick event).toList ++ events.filterMap pick := by
      intro pick
      cases shown : pick event <;> simp [shown]
    rw [noteAll_cons, later.1, later.2, first.1, first.2, consed, consed]
    simp

end Ledger

namespace Event

variable {event : Event} {core events : List Event}

theorem IsDelivery.isQuiet (delivery : event.IsDelivery) : event.IsQuiet := by
  cases event <;> trivial

theorem IsQuiet.loadedOn? (quiet : event.IsQuiet) (side : Side) : event.loadedOn? side = none := by
  cases event <;> first | rfl | exact absurd quiet id

theorem IsQuiet.readOn? (quiet : event.IsQuiet) (side : Side) : event.readOn? side = none := by
  cases event <;> first | rfl | exact absurd quiet id

theorem IsQuiet.ne_linkReset (quiet : event.IsQuiet) : event ≠ .linkReset := by
  rintro rfl
  exact quiet

theorem Amid.filterMap_eq (amid : Amid core events) {pick : Event → Option Block}
    (ignores : ∀ event : Event, event.IsQuiet → pick event = none) :
    events.filterMap pick = core.filterMap pick := by
  obtain ⟨before, after, rfl, deliversBefore, deliversAfter⟩ := amid
  have none : ∀ list : List Event, (∀ event ∈ list, event.IsDelivery) →
      list.filterMap pick = [] := by
    intro list delivers
    apply List.filterMap_eq_nil_iff.mpr
    intro event member
    exact ignores event (delivers event member).isQuiet
  simp [none _ deliversBefore, none _ deliversAfter]

end Event

/-- What an operation reports of the blocks it moved is what its answer tells. -/
structure Record.Faithful (side : Side) (record : Record) : Prop where
  accepted : record.events.filterMap (Event.loadedOn? side) = record.accepted side
  taken : record.events.filterMap (Event.readOn? side) = record.taken side
  noReset : .linkReset ∉ record.events

namespace Record.Faithful

variable {side : Side} {record : Record}

theorem of_quiet (quiet : ∀ event ∈ record.events, event.IsQuiet)
    (nothingAccepted : record.accepted side = []) (nothingTaken : record.taken side = []) :
    record.Faithful side where
  accepted := by
    rw [nothingAccepted]
    exact List.filterMap_eq_nil_iff.mpr fun event member => (quiet event member).loadedOn? side
  taken := by
    rw [nothingTaken]
    exact List.filterMap_eq_nil_iff.mpr fun event member => (quiet event member).readOn? side
  noReset member := quiet _ member

theorem of_amid {core : List Event} (amid : Event.Amid core record.events)
    (accepted : core.filterMap (Event.loadedOn? side) = record.accepted side)
    (taken : core.filterMap (Event.readOn? side) = record.taken side)
    (noReset : .linkReset ∉ core) : record.Faithful side where
  accepted := (amid.filterMap_eq fun _ quiet => quiet.loadedOn? side).trans accepted
  taken := (amid.filterMap_eq fun _ quiet => quiet.readOn? side).trans taken
  noReset member := noReset ((amid.mem member).resolve_left id)

end Record.Faithful

namespace Link

variable {link : Link}

theorem quiet_law : Framing fun _ events _ => ∀ event ∈ events, event.IsQuiet :=
  framing_of_quiet _ fun _ quiet => quiet

/-- What holds of quiet events and of what a side loads and reads holds of everything that the
side reports. -/
theorem conductBy_of_quiet (property : Event → Prop)
    (quiet : ∀ event : Event, event.IsQuiet → property event) (side : Side)
    (loaded : ∀ block, property (.loaded side block))
    (read : ∀ block, property (.read side block)) :
    ConductBy side fun _ events _ => ∀ event ∈ events, property event where
  toFramingBy := (framing_of_quiet property quiet).framingBy side
  stage _ _ _ := by simp [run_stage]
  load block link := by
    by_cases ready : (link.station side).IsReady
    · intro event member
      rcases (amid_load_of_ready block ready).mem member with delivery | core
      · exact quiet event delivery.isQuiet
      · rw [List.mem_singleton.mp core]
        exact loaded block
    · simp [run_load_of_unready block ready]
  read link := by
    cases shown : (link.station side).peek with
    | ok block =>
      intro event member
      rcases (amid_read_of_ok shown).mem member with delivery | core
      · exact quiet event delivery.isQuiet
      · rw [List.mem_singleton.mp core]
        exact read block
    | error refusal => simp [run_read_of_error shown]

theorem record_call (route : Route) (side : Side) (command : Command) :
    record (.call route side command) link =
      let outcome := (call route side command).run link
      ⟨.call route side command, .ofReply outcome.value, outcome.events⟩ := by
  simp [record, perform]

theorem faithful_load (route : Route) (caller : Side) (block : Block) (side : Side) :
    (record (.call route caller (.load block)) link).Faithful side := by
  have outcome := run_callLoad route caller link block
  rw [record_call]
  generalize (call route caller (.load block)).run link = given at outcome ⊢
  rcases outcome with ⟨refused, amid⟩ | ⟨done, amid⟩
  · refine .of_amid amid ?_ rfl (by simp)
    simp [Record.accepted, refused, Answer.ofReply]
  · refine .of_amid amid ?_ rfl (by simp)
    by_cases own : caller = side <;>
      simp [Record.accepted, done, Answer.ofReply, Event.loadedOn?, own]

theorem faithful_read (route : Route) (caller side : Side)
    (framed : ((charge.run link).state.station caller).Framed) :
    (record (.call route caller .read) link).Faithful side := by
  have outcome := run_callRead route caller link framed
  rw [record_call]
  generalize (call route caller .read).run link = given at outcome ⊢
  rcases outcome with ⟨refusal, refused, -, -, amid⟩ | ⟨block, taken, amid⟩
  · refine .of_amid amid rfl ?_ (by simp)
    simp [Record.taken, refused, Answer.ofReply]
  · refine .of_amid amid rfl ?_ (by simp)
    by_cases own : caller = side <;>
      simp [Record.taken, taken, Answer.ofReply, Event.readOn?, own]

theorem faithful_record (operation : Operation)
    (framed : ∀ side, ((charge.run link).state.station side).Framed)
    (fresh : ¬ operation.Restores) (notReset : operation ≠ .reset) (side : Side) :
    (record operation link).Faithful side := by
  cases operation with
  | restore => exact absurd trivial fresh
  | reset => exact absurd rfl notReset
  | call route caller command =>
    cases command with
    | load block => exact faithful_load route caller block side
    | read => exact faithful_read route caller side (framed caller)
    | setWatermark | openMessage | closeMessage | confirm | status | now | waitFor =>
      refine .of_quiet ?_ rfl rfl
      exact Step.within_map quiet_law.toChains _ (quiet_law.call route caller _ id) link
  | readRegister caller address =>
    have law := reading_of_quiet
      (fun event => event.loadedOn? side = none ∧ event ≠ .linkReset)
      (fun _ quiet => ⟨quiet.loadedOn? side, quiet.ne_linkReset⟩) fun _ _ => ⟨rfl, nofun⟩
    have untouched := Step.within_map law.toChains Answer.ofWord
      (law.readRegister caller address) link
    exact {
      accepted := List.filterMap_eq_nil_iff.mpr fun event member => (untouched event member).1
      taken := rfl
      noReset := fun member => (untouched _ member).2 rfl }
  | writeRegister caller address word =>
    have law := loading_of_quiet
      (fun event => event.readOn? side = none ∧ event ≠ .linkReset)
      (fun _ quiet => ⟨quiet.readOn? side, quiet.ne_linkReset⟩) fun _ _ => ⟨rfl, nofun⟩
    have untouched := Step.within_answer law.toChains (law.writeRegister caller address word)
      (fun _ => Answer.done) link
    exact {
      accepted := rfl
      taken := List.filterMap_eq_nil_iff.mpr fun event member => (untouched event member).1
      noReset := fun member => (untouched _ member).2 rfl }
  | advance cycles =>
    refine .of_quiet ?_ rfl rfl
    exact Step.within_answer quiet_law.toChains (quiet_law.advance cycles)
      (fun _ => Answer.done) link
  | reportStatus caller =>
    refine .of_quiet ?_ rfl rfl
    exact Step.within_answer quiet_law.toChains (quiet_law.reportStatus caller)
      (fun _ => Answer.done) link

/-- What an operation adds to the log is what its record adds to the blocks moved. -/
theorem add_record {log : List Event} (follows : link.Follows log) (operation : Operation)
    (fresh : ¬ operation.Restores) (side : Side) :
    let ledger := Ledger.ofLog side log
    let later := Ledger.ofLog side (log ++ ((perform operation).run link).events)
    later.loaded = Record.add (Record.accepted side) ledger.loaded (record operation link) ∧
      later.read = Record.add (Record.taken side.peer) ledger.read (record operation link) := by
  intro ledger later
  have noted : later = ledger.noteAll side (record operation link).events :=
    Ledger.noteAll_append side {} log _
  by_cases isReset : operation = .reset
  · subst isReset
    have events : (record .reset link).events = [.linkReset] := events_performReset link
    have forgotten : later = {} := by
      rw [noted, events]
      rfl
    rw [forgotten]
    exact ⟨rfl, rfl⟩
  · have framed := fun side => follows.charge.framed side
    have sending := faithful_record operation framed fresh isReset side
    have receiving := faithful_record operation framed fresh isReset side.peer
    obtain ⟨loaded, read⟩ := ledger.transfers_noteAll side sending.noReset
    have sameOperation : (record operation link).operation ≠ .reset := isReset
    rw [noted, loaded, read, sending.accepted, receiving.taken, Record.add, Record.add,
      if_neg sameOperation, if_neg sameOperation]
    exact ⟨rfl, rfl⟩

theorem add_records (operations : List Operation)
    (fresh : ∀ operation ∈ operations, ¬ operation.Restores) {log : List Event}
    (follows : link.Follows log) (side : Side) :
    let ledger := Ledger.ofLog side log
    let last := Ledger.ofLog side (log ++ ((performAll operations).run link).events)
    last.loaded =
        (records operations link).foldl (Record.add (Record.accepted side)) ledger.loaded ∧
      last.read =
        (records operations link).foldl (Record.add (Record.taken side.peer)) ledger.read := by
  induction operations generalizing link log with
  | nil => simp [performAll, records]
  | cons operation rest inductionHypothesis =>
    have isFresh : ¬ operation.Restores := fresh operation (by simp)
    have restFresh : ∀ later ∈ rest, ¬ later.Restores := by
      intro later member
      exact fresh later (by simp [member])
    have followsOn := follows.step (trace_law.perform operation isFresh)
    obtain ⟨loadedFirst, readFirst⟩ := add_record follows operation isFresh side
    obtain ⟨loadedRest, readRest⟩ := inductionHypothesis restFresh followsOn
    intro ledger last
    have together : last = Ledger.ofLog side (log ++ ((perform operation).run link).events ++
        ((performAll rest).run ((perform operation).run link).state).events) := by
      simp [last, performAll]
    rw [together, loadedRest, readRest, loadedFirst, readFirst]
    exact ⟨rfl, rfl⟩

end Link

namespace Run

variable (run : Run) (side : Side)

/-- The blocks that a side accepted since the last reset are, in order, those that its peer
took, those in the peer's receive FIFO and those in its own transmit FIFO. -/
theorem blocks_conserved :
    Record.since (Record.accepted side) run.records =
      Record.since (Record.taken side.peer) run.records ++
        (run.link.station side.peer).rx.blocks ++ (run.link.station side).tx.blocks := by
  have start : run.start.Follows [] := .start run.created
  obtain ⟨loaded, read⟩ := Link.add_records run.operations run.fresh start side
  obtain ⟨passed, agrees⟩ := run.agrees side
  have accepted : Record.since (Record.accepted side) run.records = (run.ledger side).loaded :=
    loaded.symm
  have taken : Record.since (Record.taken side.peer) run.records = (run.ledger side).read :=
    read.symm
  rw [accepted, taken, agrees.loaded_eq, List.map_append, ← List.append_assoc]
  rfl

/-- One block is loaded by a call and one word by word; the first of them is read. -/
example :
    let first : Block := ⟨1, 2, 3, 4⟩
    let run : Run := {
      config := {}
      start := .idle {} 0
      created := rfl
      operations :=
        [.call .direct .left .openMessage, .call .direct .left (.load first),
          .writeRegister .left (Register.writeData 0).address 5,
          .writeRegister .left (Register.writeData 3).address 6,
          .call .registers .right .read]
      fresh := by decide }
    Record.since (Record.accepted .left) run.records = [first, ⟨5, 0, 0, 6⟩] ∧
      Record.since (Record.taken .right) run.records = [first] := by
  decide +kernel

end Run

end BlockLink
