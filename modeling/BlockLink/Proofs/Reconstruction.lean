import BlockLink.Proofs.Receiver

/-!
Reconstruction of messages.

One side sends messages and the other splits what it reads into messages. However
their calls follow one another, and however long the blocks take to cross, the
receiver ends up with the messages that were sent.
-/

namespace BlockLink

/-- A call of the side that sends. -/
inductive Sending where
  | openMessage
  | load (block : Block)
  | closeMessage
deriving DecidableEq

def Sending.command : Sending → Command
  | openMessage => .openMessage
  | load block => .load block
  | closeMessage => .closeMessage

/-- What was sent, as the answers tell it. -/
structure Sender where
  /-- The messages that were closed and hold a block. -/
  closed : List (List Block) := []
  current : List Block := []

def Sender.hear (sender : Sender) (sending : Sending) (answer : Except Fault Reply) : Sender :=
  match sending, answer with
  | .load block, .ok .done => { sender with current := sender.current ++ [block] }
  | .closeMessage, .ok .done =>
    if sender.current = [] then sender
    else { closed := sender.closed ++ [sender.current], current := [] }
  | _, _ => sender

theorem Sender.hear_close {sender : Sender} {ledger : Ledger}
    (closed : sender.closed = ledger.closed) (current : sender.current = ledger.current) :
    (sender.hear .closeMessage (.ok .done)).closed = ledger.close.closed ∧
      (sender.hear .closeMessage (.ok .done)).current = ledger.close.current := by
  simp only [hear, Ledger.close]
  by_cases isEmpty : ledger.current = []
  · simp [current, isEmpty, closed]
  · simp [current, isEmpty, closed]

inductive Exchange.Move where
  | receive (route : Route)
  | send (route : Route) (sending : Sending)
  | advance (cycles : Time)
deriving DecidableEq

/-- A link with a sender on one side and a receiver on the other. -/
structure Exchange where
  link : Link
  receiver : Receiver := {}
  sender : Sender := {}

def Exchange.step (source : Side) (exchange : Exchange) : Move → Exchange
  | .receive route =>
    match exchange.receiver.command? with
    | none => exchange
    | some command =>
      let outcome := (Link.call route source.peer command).run exchange.link
      { exchange with
        link := outcome.state
        receiver := exchange.receiver.hear outcome.value }
  | .send route sending =>
    let outcome := (Link.call route source sending.command).run exchange.link
    { exchange with
      link := outcome.state
      sender := exchange.sender.hear sending outcome.value }
  | .advance cycles =>
    { exchange with link := ((Link.advance cycles).run exchange.link).state }

/-- An exchange on a new link, in any order of moves. -/
structure Session where
  config : Config
  source : Side
  start : Link
  created : Link.create config = .ok start
  moves : List Exchange.Move

def Session.last (session : Session) : Exchange :=
  session.moves.foldl (Exchange.step session.source) { link := session.start }

/-- Whether an event settles a boundary at the receiver. -/
def Event.Settles (source : Side) (event : Event) : Prop :=
  event = .station source.peer .boundaryConfirmed ∨ event = .linkReset

namespace Event

variable {source : Side} {event : Event} {core events : List Event}

theorem IsDelivery.not_settles (delivery : event.IsDelivery) : ¬ event.Settles source := by
  rintro (rfl | rfl)
  · exact delivery
  · exact delivery

theorem Amid.not_settles (amid : Amid core events)
    (unsettled : ∀ event ∈ core, ¬ event.Settles source) :
    ∀ event ∈ events, ¬ event.Settles source := by
  intro event member
  rcases amid.mem member with delivery | inCore
  · exact delivery.not_settles
  · exact unsettled event inCore

end Event

namespace Lane

variable {source : Side} {first last : Lane} {events : List Event}

/-- A pending boundary stays until it is settled. -/
theorem Move.pending_kept (move : Move source first events last)
    (unsettled : ∀ event ∈ events, ¬ event.Settles source) (isPending : first.isPending = true) :
    last.isPending = true := by
  cases move with
  | confirmed => exact absurd (.inl rfl) (unsettled _ (by simp))
  | reset => exact absurd (.inr rfl) (unsettled _ (by simp))
  | crossed shape able =>
    rw [able.2.1] at isPending
    cases isPending
  | @read entry rest shape readable =>
    have plain : entry.final = false := by
      apply Bool.eq_false_iff.mpr
      intro final
      exact readable ⟨final, isPending⟩
    simp [isPending, plain]
  | closedCrossed => rfl
  | elsewhere | opened | closedNone | closedEmpty | closedWaiting | loaded => exact isPending

theorem Trace.pending_kept (trace : Trace source first events last)
    (unsettled : ∀ event ∈ events, ¬ event.Settles source) (isPending : first.isPending = true) :
    last.isPending = true := by
  induction trace with
  | rest => exact isPending
  | next _ move inductionHypothesis =>
    apply move.pending_kept
    · intro event member
      exact unsettled event (List.mem_append_right _ member)
    · apply inductionHypothesis
      intro event member
      exact unsettled event (List.mem_append_left _ member)

end Lane

namespace Link

variable {link : Link} {source : Side}

theorem finish_not_settles :
    ∀ event ∈ ((finish source).run link).events, ¬ event.Settles source := by
  have finished := finished link source
  generalize (finish source).run link = outcome at finished ⊢
  cases finished <;> simp [Event.Settles]

end Link

/-- An exchange agrees with the history of its link. -/
structure Exchange.Kept (source : Side) (exchange : Exchange) (log : List Event) : Prop where
  follows : exchange.link.Follows log
  watermarked : exchange.link.Watermarked
  closed : exchange.sender.closed = (Ledger.ofLog source log).closed
  current : exchange.sender.current = (Ledger.ofLog source log).current
  tracks : exchange.receiver.Tracks (Ledger.ofLog source log) (exchange.link.lane source).isPending

namespace Exchange.Kept

variable {source : Side} {exchange : Exchange} {log : List Event}

theorem start {config : Config} {link : Link} (created : Link.create config = .ok link) :
    Exchange.Kept source { link } [] where
  follows := .start created
  watermarked := .created created
  closed := rfl
  current := rfl
  tracks := .start

/-- What is reported amid deliveries decides what the parties have to agree with. -/
theorem next {α : Type} {step : Step Event Link α} (kept : exchange.Kept source log)
    (lawful : Link.Lawful step) {core : List Event}
    (amid : Event.Amid core (step.run exchange.link).events)
    {receiver : Receiver} {sender : Sender}
    (closed : sender.closed = ((Ledger.ofLog source log).noteAll source core).closed)
    (current : sender.current = ((Ledger.ofLog source log).noteAll source core).current)
    (tracks : receiver.Tracks ((Ledger.ofLog source log).noteAll source core)
      ((step.run exchange.link).state.lane source).isPending) :
    Exchange.Kept source { link := (step.run exchange.link).state, receiver, sender }
      (log ++ (step.run exchange.link).events) := by
  have alike := Ledger.Alike.of_log source log amid
  exact {
    follows := kept.follows.step (lawful _ Link.trace_law)
    watermarked := lawful _ Link.watermarks_law exchange.link kept.watermarked
    closed := closed.trans alike.closed.symm
    current := current.trans alike.current.symm
    tracks := tracks.alike alike id }

/-- What the sender does leaves the receiver where it is. -/
theorem send_next {α : Type} {step : Step Event Link α} (kept : exchange.Kept source log)
    (lawful : Link.Lawful step) {core : List Event}
    (amid : Event.Amid core (step.run exchange.link).events)
    (unsettled : ∀ event ∈ core, ¬ event.Settles source) {target : Ledger}
    (alike : ((Ledger.ofLog source log).noteAll source core).Alike target)
    (grown : (Ledger.ofLog source log).closed <+: target.closed)
    (read : target.read = (Ledger.ofLog source log).read)
    (confirmed : target.confirmed = (Ledger.ofLog source log).confirmed) {sender : Sender}
    (closed : sender.closed = target.closed) (current : sender.current = target.current) :
    Exchange.Kept source { exchange with link := (step.run exchange.link).state, sender }
      (log ++ (step.run exchange.link).events) := by
  apply kept.next lawful amid
  · exact closed.trans alike.closed.symm
  · exact current.trans alike.current.symm
  · apply kept.tracks.later
    · rw [alike.closed]
      exact grown
    · exact alike.read.trans read
    · exact alike.confirmed.trans confirmed
    · obtain ⟨-, traced⟩ := lawful _ Link.trace_law exchange.link kept.follows.accepted
      exact (traced source).pending_kept (amid.not_settles unsettled)

theorem wait {α : Type} {step : Step Event Link α} (kept : exchange.Kept source log)
    (lawful : Link.Lawful step)
    (amid : Event.Amid [] (step.run exchange.link).events) :
    Exchange.Kept source { exchange with link := (step.run exchange.link).state }
      (log ++ (step.run exchange.link).events) :=
  kept.send_next lawful amid (by simp) (.refl _) List.prefix_rfl rfl rfl kept.closed kept.current

theorem send (kept : exchange.Kept source log) (route : Route) (sending : Sending) :
    (exchange.step source (.send route sending)).Kept source
      (log ++ ((Link.call route source sending.command).run exchange.link).events) := by
  have lawful := Link.lawful_call route source sending.command
  have valid := kept.watermarked.2 source
  cases sending with
  | openMessage =>
    obtain ⟨-, amid | amid⟩ := Link.run_callOpen route source exchange.link valid
    · exact kept.wait lawful amid
    · exact kept.send_next lawful amid (by simp [Event.Settles]) (.refl _) List.prefix_rfl rfl rfl
        kept.closed kept.current
  | load block =>
    rcases Link.run_callLoad route source exchange.link block with
      ⟨refused, amid⟩ | ⟨accepted, amid⟩
    · have unheard : exchange.sender.hear (.load block) (.ok (.refused .unavailable)) =
          exchange.sender := rfl
      simp only [step, Sending.command, refused, unheard]
      exact kept.wait lawful amid
    · simp only [step, Sending.command, accepted]
      apply kept.send_next lawful amid (by simp [Event.Settles])
      · simpa [Ledger.note] using Ledger.Alike.refl _
      · exact List.prefix_rfl
      · rfl
      · rfl
      · exact kept.closed
      · simp [Sender.hear, kept.current]
  | closeMessage =>
    obtain ⟨done, amid⟩ := Link.run_callClose route source exchange.link valid
    simp only [step, Sending.command, done]
    apply kept.send_next lawful amid Link.finish_not_settles
    · exact kept.follows.alike_finish source route.accesses
    · exact Ledger.closed_prefix_close _
    · exact Ledger.close_read _
    · exact Ledger.close_confirmed _
    · exact (Sender.hear_close kept.closed kept.current).1
    · exact (Sender.hear_close kept.closed kept.current).2

section Receiving

variable {route : Route}

/-- The receiver acts on the answer to the call that its turn asks for. -/
theorem hear {command : Command} (asks : exchange.receiver.command? = some command)
    {later : List Event}
    (kept : Exchange.Kept source
      { exchange with link := ((Link.call route source.peer command).run exchange.link).state }
      later)
    (tracks : (exchange.receiver.hear
        ((Link.call route source.peer command).run exchange.link).value).Tracks
      (Ledger.ofLog source later)
      (((Link.call route source.peer command).run exchange.link).state.lane source).isPending) :
    (exchange.step source (.receive route)).Kept source later := by
  simp only [step, asks]
  exact { kept with tracks }

theorem look (kept : exchange.Kept source log) (turn : exchange.receiver.turn = .look) :
    ∃ later, (exchange.step source (.receive route)).Kept source later := by
  have shown := Link.run_callStatus route source.peer exchange.link
  have amid : Event.Amid [] ((Link.call route source.peer .status).run exchange.link).events := by
    rw [shown]
    exact Event.amid_nil (Link.delivery_law.charge _)
  have later := kept.wait (Link.lawful_call route source.peer .status) amid
  refine ⟨_, later.hear (by simp [Receiver.command?, turn]) ?_⟩
  obtain ⟨passed, agrees⟩ := later.follows.agrees source
  have value := congrArg Outcome.value shown
  have state := congrArg Outcome.state shown
  dsimp only at value state
  rw [value]
  apply later.tracks.look agrees turn
  · simp [state, Link.status, Station.status, Link.lane, Lane.between]
  · simp [state, Link.status, Station.status, Link.lane, Lane.between, Fifo.size,
      List.length_pos_iff]

theorem take (kept : exchange.Kept source log) (turn : exchange.receiver.turn = .take) :
    ∃ later, (exchange.step source (.receive route)).Kept source later := by
  have asks : exchange.receiver.command? = some .read := by simp [Receiver.command?, turn]
  have lawful := Link.lawful_call route source.peer .read
  have framed := kept.follows.charge.framed source.peer
  rcases Link.run_callRead route source.peer exchange.link framed with
    ⟨refusal, refused, state, shown, amid⟩ | ⟨block, taken, amid⟩
  · have later := kept.wait lawful amid
    refine ⟨_, later.hear asks ?_⟩
    obtain ⟨passed, agrees⟩ := later.follows.agrees source
    rw [refused]
    rcases Station.refused_of_peek framed shown with rfl | ⟨rfl, isPending, single⟩
    · exact later.tracks.unavailable turn
    · apply later.tracks.blocked agrees turn
      · simpa [state, Link.lane, Lane.between] using isPending
      · simpa [state, Link.lane, Lane.between] using single
  · refine ⟨log ++ ((Link.call route source.peer .read).run exchange.link).events, ?_⟩
    have noted : (Ledger.ofLog source log).noteAll source [.read source.peer block] =
        { Ledger.ofLog source log with read := (Ledger.ofLog source log).read ++ [block] } := by
      simp [Ledger.note]
    have further : (Ledger.ofLog source log).read ++ [block] <+:
        (Ledger.ofLog source log).loaded := by
      obtain ⟨passed, agrees⟩ := (kept.follows.step (lawful _ Link.trace_law)).agrees source
      have alike := Ledger.Alike.of_log source log amid
      have inside := agrees.read_prefix
      rw [alike.read, alike.loaded, noted] at inside
      exact inside
    simp only [step, asks, taken]
    apply kept.next lawful amid
    · rw [noted]
      exact kept.closed
    · rw [noted]
      exact kept.current
    · rw [noted]
      exact kept.tracks.block turn further

theorem confirm (kept : exchange.Kept source log) (turn : exchange.receiver.turn = .confirm) :
    ∃ later, (exchange.step source (.receive route)).Kept source later := by
  have asks : exchange.receiver.command? = some .confirm := by simp [Receiver.command?, turn]
  have lawful := Link.lawful_call route source.peer .confirm
  obtain ⟨done, amid⟩ := Link.run_callConfirm route source.peer exchange.link
    (kept.watermarked.2 source.peer)
  have isPending := Link.pending_law.charges route.accesses exchange.link source.peer
    (kept.tracks.held turn)
  rw [if_pos isPending] at amid
  refine ⟨log ++ ((Link.call route source.peer .confirm).run exchange.link).events, ?_⟩
  have noted : (Ledger.ofLog source log).noteAll source [.station source.peer .boundaryConfirmed] =
      { Ledger.ofLog source log with
        acknowledged := (Ledger.ofLog source log).signalled
        confirmed := (Ledger.ofLog source log).confirmed + 1 } := by
    simp [Ledger.note]
  simp only [step, asks, done]
  apply kept.next lawful amid
  · rw [noted]
    exact kept.closed
  · rw [noted]
    exact kept.current
  · exact (kept.tracks.confirm turn).alike (by rw [noted]; constructor <;> rfl) id

end Receiving

theorem move (kept : exchange.Kept source log) (move : Exchange.Move) :
    ∃ later, (exchange.step source move).Kept source later := by
  cases move with
  | receive route =>
    cases turn : exchange.receiver.turn with
    | look => exact kept.look turn
    | take => exact kept.take turn
    | confirm => exact kept.confirm turn
    | failed => exact absurd turn kept.tracks.going
  | send route sending => exact ⟨_, kept.send route sending⟩
  | advance cycles =>
    refine ⟨_, kept.wait (Link.lawful_advance cycles) ?_⟩
    exact Event.amid_nil (Link.delivery_law.advance cycles exchange.link)

theorem moves (kept : exchange.Kept source log) (moves : List Exchange.Move) :
    ∃ later, (moves.foldl (Exchange.step source) exchange).Kept source later := by
  induction moves generalizing exchange log with
  | nil => exact ⟨log, kept⟩
  | cons move moves inductionHypothesis =>
    obtain ⟨later, keptNext⟩ := kept.move move
    exact inductionHypothesis keptNext

end Exchange.Kept

namespace Session

/-- At every point of an exchange the receiver has the messages that were sent, up to some
message, and the beginning of that message. -/
theorem messages_reconstructed (session : Session) :
    let receiver := session.last.receiver
    let sender := session.last.sender
    receiver.turn ≠ .failed ∧ receiver.messages <+: sender.closed ∧
      ∃ next rest, sender.closed ++ [sender.current] = receiver.messages ++ next :: rest ∧
        receiver.current <+: next := by
  obtain ⟨log, kept⟩ := (Exchange.Kept.start session.created).moves session.moves
  obtain ⟨passed, agrees⟩ := kept.follows.agrees session.source
  have next := kept.tracks.next_message agrees
  rw [← kept.closed, ← kept.current] at next
  refine ⟨kept.tracks.going, ?_, next⟩
  rw [Session.last, kept.closed]
  exact kept.tracks.within

/-- One message ends with a blocked read, the other one after its last block was read. -/
example :
    let first : Block := ⟨1, 0, 0, 0⟩
    let second : Block := ⟨2, 0, 0, 0⟩
    let third : Block := ⟨3, 0, 0, 0⟩
    let session : Session := {
      config := {}
      source := .left
      start := .idle {} 0
      created := rfl
      moves :=
        [.send .direct .openMessage, .send .direct (.load first), .send .registers (.load second),
          .send .direct .closeMessage, .receive .direct, .receive .registers, .receive .direct,
          .receive .direct, .receive .registers, .receive .direct, .receive .direct,
          .send .registers .openMessage, .send .direct (.load third), .receive .direct,
          .receive .direct, .send .registers .closeMessage, .receive .direct, .receive .direct] }
    session.last.receiver.messages = [[first, second], [third]] := by
  decide +kernel

end Session

end BlockLink
