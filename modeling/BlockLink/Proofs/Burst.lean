import BlockLink.Proofs.Conservation

/-!
Bursts of register accesses, with the peer in between.

A driver call is a program of accesses, and the link is not locked while it runs: the
peer may make accesses of its own between any two of them. `Program.burst` carries out
a program that way and keeps every access together with the link that it was made on.
-/

namespace BlockLink

/-- An access to a register window. -/
inductive WindowAccess where
  | read (address : UInt32)
  | write (address word : UInt32)
deriving DecidableEq

def WindowAccess.on (side : Side) : WindowAccess → Operation
  | .read address => .readRegister side address
  | .write address word => .writeRegister side address word

/-- An access of a side, and the link that it was made on. -/
structure Moment where
  side : Side
  access : WindowAccess
  before : Link

namespace Moment

section Outcome

variable (moment : Moment)

def outcome : Outcome Event Link Answer :=
  (Link.perform (moment.access.on moment.side)).run moment.before

def answer : Answer := moment.outcome.value

def after : Link := moment.outcome.state

def events : List Event := moment.outcome.events

/-- The link when the access is charged and what that delivers has crossed. -/
def charged : Link := (Link.charge.run moment.before).state

end Outcome

/-- The blocks that were appended to the transmit FIFO of a side. -/
def loaded (side : Side) (moments : List Moment) : List Block :=
  (moments.flatMap events).filterMap (Event.loadedOn? side)

/-- The blocks that were popped from the receive FIFO of a side. -/
def taken (side : Side) (moments : List Moment) : List Block :=
  (moments.flatMap events).filterMap (Event.readOn? side)

/-- The moments of one side. -/
def ownOf (side : Side) (moments : List Moment) : List Moment :=
  moments.filter fun moment => moment.side = side

section Lists

variable {side : Side} {moment : Moment}

theorem taken_append (before after : List Moment) :
    taken side (before ++ after) = taken side before ++ taken side after := by
  simp [taken]

theorem ownOf_append (before after : List Moment) :
    ownOf side (before ++ after) = ownOf side before ++ ownOf side after :=
  List.filter_append ..

theorem ownOf_cons (own : moment.side = side) (moments : List Moment) :
    ownOf side (moment :: moments) = moment :: ownOf side moments := by
  simp [ownOf, own]

theorem ownOf_foreign {gap : List Moment} (foreign : ∀ moment ∈ gap, moment.side = side.peer) :
    ownOf side gap = [] := by
  apply List.filter_eq_nil_iff.mpr
  intro moment member
  simp [foreign moment member]

theorem mem_of_ownOf_eq {moments own : List Moment} (shape : ownOf side moments = own) :
    ∀ moment ∈ own, moment ∈ moments := by
  intro moment member
  rw [← shape] at member
  exact (List.mem_filter.mp member).1

/-- What holds of the moments of a side holds of all but those of the peer. -/
theorem byPeer_or_of_ownOf_eq {moments own : List Moment} {property : Moment → Prop}
    (shape : ownOf side moments = own) (holds : ∀ moment ∈ own, property moment) :
    ∀ moment ∈ moments, moment.side = side.peer ∨ property moment := by
  intro moment member
  rcases Side.self_or_peer side moment.side with isOwn | byPeer
  · right
    apply holds
    rw [← shape]
    exact List.mem_filter.mpr ⟨member, decide_eq_true isOwn⟩
  · exact .inl byPeer

end Lists

end Moment

namespace Link

/-- Carry out an access, and keep its moment in place of what it reports. -/
def witness {α : Type} (side : Side) (access : WindowAccess) (step : Step Event Link α) :
    Step Moment Link α := fun link =>
  let outcome := step.run link
  ⟨outcome.value, outcome.state, [⟨side, access, link⟩]⟩

theorem run_witness {α : Type} (side : Side) (access : WindowAccess) (step : Step Event Link α)
    (link : Link) :
    (witness side access step).run link =
      ⟨(step.run link).value, (step.run link).state, [⟨side, access, link⟩]⟩ :=
  rfl

/-- Make accesses on a side one after another. -/
def intrude (side : Side) : List WindowAccess → Step Moment Link Unit
  | [] => Step.skip
  | access :: rest => do
    let _ ← witness side access (perform (access.on side))
    intrude side rest

end Link

namespace Program

variable {α : Type}

/-- Carry out a program on a side. Before each of its accesses the peer makes those of the
next gap. -/
def amid (side : Side) : Program α → List (List WindowAccess) →
    Step Moment Link (Except Fault α)
  | answer value, _ => Step.done (.ok value)
  | read address next, gaps => do
    Link.intrude side.peer (gaps.headD [])
    match ← Link.witness side (.read address) (Link.readRegister side address) with
    | .ok word => (next word).amid side gaps.tail
    | .error fault => return .error fault
  | write address word next, gaps => do
    Link.intrude side.peer (gaps.headD [])
    Link.witness side (.write address word) (Link.writeRegister side address word)
    next.amid side gaps.tail

/-- Carry out a program on a side, the peer making the accesses of a gap between each two of
its accesses. -/
def burst (side : Side) (program : Program α) (gaps : List (List WindowAccess)) :
    Step Moment Link (Except Fault α) :=
  program.amid side ([] :: gaps)

end Program

/-- Moments each of which begins with the link that the one before has left. -/
inductive Moment.Sequence : Link → List Moment → Link → Prop where
  | rest {link : Link} : Sequence link [] link
  | next {moment : Moment} {moments : List Moment} {last : Link} :
      Sequence moment.after moments last → Sequence moment.before (moment :: moments) last

namespace Moment.Sequence

variable {first middle last : Link} {before after moments : List Moment}

theorem single (moment : Moment) : Sequence moment.before [moment] moment.after :=
  .next .rest

theorem append (left : Sequence first before middle) (right : Sequence middle after last) :
    Sequence first (before ++ after) last := by
  induction left with
  | rest => exact right
  | next _ inductionHypothesis => exact .next (inductionHypothesis right)

/-- What every moment keeps is kept by all of them. It may speak of the moments so far. -/
theorem invariant (sequence : Sequence first moments last) (holds : List Moment → Link → Prop)
    (kept : ∀ earlier, ∀ moment ∈ moments,
      holds earlier moment.before → holds (earlier ++ [moment]) moment.after)
    {earlier : List Moment} (start : holds earlier first) : holds (earlier ++ moments) last := by
  induction sequence generalizing earlier with
  | rest =>
    rw [List.append_nil]
    exact start
  | @next moment moments last _ inductionHypothesis =>
    rw [List.append_cons]
    apply inductionHypothesis
    · intro later other member
      exact kept later other (List.mem_cons_of_mem _ member)
    · exact kept earlier moment (List.mem_cons_self ..) start

end Moment.Sequence

/-- Accesses of a side one after another. -/
structure Moment.Gap (side : Side) (first : Link) (moments : List Moment) (last : Link) :
    Prop where
  sequence : Moment.Sequence first moments last
  own : ∀ moment ∈ moments, moment.side = side

/-- The moments of four accesses with the peer in between: what comes before the last one. -/
theorem Moment.exists_front {side : Side} {link : Link} {gap0 gap1 gap2 gap3 : List Moment}
    {first second third final : Moment}
    (isGap0 : Moment.Gap side.peer link gap0 first.before) (own0 : first.side = side)
    (isGap1 : Moment.Gap side.peer first.after gap1 second.before) (own1 : second.side = side)
    (isGap2 : Moment.Gap side.peer second.after gap2 third.before) (own2 : third.side = side)
    (isGap3 : Moment.Gap side.peer third.after gap3 final.before) :
    ∃ front, gap0 ++ first :: (gap1 ++ second :: (gap2 ++ third :: (gap3 ++ [final]))) =
        front ++ [final] ∧
      Moment.ownOf side front = [first, second, third] ∧
      Moment.Sequence link front final.before := by
  refine ⟨gap0 ++ first :: (gap1 ++ second :: (gap2 ++ third :: gap3)), by simp, ?_, ?_⟩
  · simp only [Moment.ownOf_append, Moment.ownOf_cons own0, Moment.ownOf_cons own1,
      Moment.ownOf_cons own2, Moment.ownOf_foreign isGap0.own, Moment.ownOf_foreign isGap1.own,
      Moment.ownOf_foreign isGap2.own, Moment.ownOf_foreign isGap3.own, List.nil_append]
  · exact isGap0.sequence.append <| .next <| isGap1.sequence.append <| .next <|
      isGap2.sequence.append <| .next isGap3.sequence

theorem Link.gap_intrude (side : Side) (accesses : List WindowAccess) (link : Link) :
    let intruded := (intrude side accesses).run link
    Moment.Gap side link intruded.events intruded.state := by
  induction accesses generalizing link with
  | nil => exact ⟨.rest, by simp [intrude]⟩
  | cons access rest inductionHypothesis =>
    have first := Moment.Sequence.single ⟨side, access, link⟩
    have later := inductionHypothesis ((perform (access.on side)).run link).state
    refine ⟨first.append later.sequence, ?_⟩
    intro moment member
    rcases List.mem_cons.mp member with rfl | inLater
    · rfl
    · exact later.own moment inLater

namespace Program

/-- How a program goes when the peer makes some accesses before each of its own. -/
inductive Course {α : Type} (side : Side) :
    Program α → Link → List Moment → Except Fault α → Link → Prop where
  | answer {value : α} {link : Link} : Course side (.answer value) link [] (.ok value) link
  | read {address word : UInt32} {next : UInt32 → Program α} {link last : Link}
      {gap later : List Moment} {moment : Moment} {value : Except Fault α} :
      Moment.Gap side.peer link gap moment.before →
      moment.side = side → moment.access = .read address → moment.answer = .word word →
      Course side (next word) moment.after later value last →
      Course side (.read address next) link (gap ++ moment :: later) value last
  | fault {address : UInt32} {fault : Fault} {next : UInt32 → Program α} {link : Link}
      {gap : List Moment} {moment : Moment} :
      Moment.Gap side.peer link gap moment.before →
      moment.side = side → moment.access = .read address → moment.answer = .fault fault →
      Course side (.read address next) link (gap ++ [moment]) (.error fault) moment.after
  | write {address word : UInt32} {next : Program α} {link last : Link}
      {gap later : List Moment} {moment : Moment} {value : Except Fault α} :
      Moment.Gap side.peer link gap moment.before →
      moment.side = side → moment.access = .write address word →
      Course side next moment.after later value last →
      Course side (.write address word next) link (gap ++ moment :: later) value last

variable {α : Type}

theorem course_amid (side : Side) (program : Program α) (gaps : List (List WindowAccess))
    (link : Link) :
    let outcome := (program.amid side gaps).run link
    Course side program link outcome.events outcome.value outcome.state := by
  induction program generalizing gaps link with
  | answer value => exact .answer
  | read address next inductionHypothesis =>
    have gap := Link.gap_intrude side.peer (gaps.headD []) link
    rw [amid, Step.run_bind]
    generalize (Link.intrude side.peer (gaps.headD [])).run link = intruded at gap ⊢
    let moment : Moment := ⟨side, .read address, intruded.state⟩
    rw [Step.run_bind, Link.run_witness]
    dsimp only
    cases shown : ((Link.readRegister side address).run intruded.state).value with
    | ok word =>
      have answered : moment.answer = .word word := congrArg Answer.ofWord shown
      exact .read gap rfl rfl answered (inductionHypothesis word gaps.tail moment.after)
    | error fault =>
      have answered : moment.answer = .fault fault := congrArg Answer.ofWord shown
      exact .fault gap rfl rfl answered
  | write address word next inductionHypothesis =>
    have gap := Link.gap_intrude side.peer (gaps.headD []) link
    rw [amid, Step.run_bind]
    generalize (Link.intrude side.peer (gaps.headD [])).run link = intruded at gap ⊢
    let moment : Moment := ⟨side, .write address word, intruded.state⟩
    exact .write gap rfl rfl (inductionHypothesis gaps.tail moment.after)

theorem burst_nil (side : Side) (program : Program α) :
    program.burst side [] = program.amid side [] := by
  cases program <;> simp [burst, amid]

/-- A burst that begins with a STATUS read is decided by the status once that access is charged;
the peer comes in afterwards. -/
theorem run_burst_status (side : Side) (next : UInt32 → Program α)
    (gaps : List (List WindowAccess)) (link : Link) :
    ((Program.read Register.status.address next).burst side gaps).run link =
      let charged := (Link.charge.run link).state
      let rest := ((next (charged.station side).status.toWord).amid side gaps).run charged
      ⟨rest.value, rest.state, ⟨side, .read Register.status.address, link⟩ :: rest.events⟩ := by
  rw [burst, amid, List.headD_cons, Link.intrude, Step.skip_bind, Step.run_bind,
    Link.run_witness, Link.readRegister_status]
  rfl

/-- Without the peer, a burst is what the program does on the bus of its side. -/
theorem burst_alone (side : Side) (program : Program α) (link : Link) :
    let burst := (program.burst side []).run link
    let alone := (program.run (Link.bus side)).run link
    burst.value = alone.value ∧ burst.state = alone.state ∧
      burst.events.flatMap Moment.events = alone.events := by
  rw [burst_nil]
  induction program generalizing link with
  | answer value => exact ⟨rfl, rfl, rfl⟩
  | read address next inductionHypothesis =>
    have reported : Moment.events ⟨side, .read address, link⟩ =
        ((Link.readRegister side address).run link).events :=
      List.append_nil _
    have bus : (Link.bus side).read address = Link.readRegister side address := rfl
    rw [amid, List.headD_nil, Link.intrude, Step.skip_bind, Step.run_bind, Link.run_witness, run,
      Step.run_bind, bus]
    dsimp only
    rw [List.flatMap_append, List.flatMap_singleton, reported]
    cases ((Link.readRegister side address).run link).value with
    | ok word =>
      obtain ⟨value, state, events⟩ :=
        inductionHypothesis word ((Link.readRegister side address).run link).state
      exact ⟨value, state, congrArg _ events⟩
    | error fault => exact ⟨rfl, rfl, rfl⟩
  | write address word next inductionHypothesis =>
    have reported : Moment.events ⟨side, .write address word, link⟩ =
        ((Link.writeRegister side address word).run link).events :=
      List.append_nil _
    obtain ⟨value, state, events⟩ :=
      inductionHypothesis ((Link.writeRegister side address word).run link).state
    rw [amid, List.headD_nil, Link.intrude, Step.skip_bind, Step.run_bind, Link.run_witness, run,
      Step.run_bind]
    dsimp only
    rw [List.flatMap_append, List.flatMap_singleton, reported]
    exact ⟨value, state, congrArg _ events⟩

end Program

end BlockLink
