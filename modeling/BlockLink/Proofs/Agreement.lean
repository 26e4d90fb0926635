import BlockLink.Proofs.Ledger

/-!
The invariant between the history of a lane and its present.

`Ledger.Agrees` ties a ledger to its lane. Each move keeps it, and so it holds at
every point of every run from a new link. The clause that carries the rest is
`held`: while the receiver accepts nothing, what has crossed ends with the final
block of a message. A sender with an open, loaded message and nothing left to
send therefore faces a receiver that is free, which is what the choice made on
closing a message relies on.
-/

namespace BlockLink

/-- The ledger and the lane tell the same story. The frames in `passed` are those that were
read, with the marks that they carry by now. -/
structure Ledger.Agrees (ledger : Ledger) (lane : Lane) (passed : List Frame) : Prop where
  nonempty : ∀ message ∈ ledger.closed, message ≠ []
  read : passed.map Prod.fst = ledger.read
  stream : ledger.stream =
    passed ++ Frame.ofEntries lane.arrived ++ Frame.ofEntries lane.waiting
  crossed : ledger.crossed = (passed ++ Frame.ofEntries lane.arrived).length
  signalled : ledger.signalled = Frame.endsFrom 0 (passed ++ Frame.ofEntries lane.arrived)
  acknowledged : ledger.acknowledged =
    if lane.isPending then ledger.signalled.dropLast else ledger.signalled
  confirmed : ledger.confirmed = ledger.acknowledged.length
  held : lane.isPending = true ∨ lane.HoldsFinal →
    ∃ front block, passed ++ Frame.ofEntries lane.arrived = front ++ [(block, true)]
  single : ∀ entry ∈ lane.arrived.dropLast, entry.final = false
  loaded : lane.isLoaded = true ↔ ledger.current ≠ []
  shut : lane.isOpen = false → ledger.current = []

namespace Ledger.Agrees

variable {sender : Side} {ledger : Ledger} {lane : Lane} {passed : List Frame}

theorem start : Ledger.Agrees {} .idle [] where
  nonempty := by simp
  read := rfl
  stream := rfl
  crossed := rfl
  signalled := rfl
  acknowledged := rfl
  confirmed := rfl
  held := by simp [Lane.idle, Lane.HoldsFinal]
  single := by simp [Lane.idle]
  loaded := by simp [Lane.idle]
  shut := fun _ => rfl

theorem opened (agrees : ledger.Agrees lane passed) (isShut : lane.isOpen = false) :
    ledger.Agrees { lane with isOpen := true, isLoaded := false } passed :=
  { agrees with
    loaded := by simp [agrees.shut isShut]
    shut := nofun }

theorem closedEmpty (agrees : ledger.Agrees lane passed) (isEmpty : ledger.current = []) :
    ledger.Agrees { lane with isOpen := false, isLoaded := false } passed :=
  { agrees with
    loaded := by simp [isEmpty]
    shut := fun _ => isEmpty }

theorem closedWaiting (agrees : ledger.Agrees lane passed) (hasBlocks : ledger.current ≠ [])
    (waiting : lane.waiting ≠ []) :
    ledger.close.Agrees
      { lane with waiting := Fifo.markLast lane.waiting, isOpen := false, isLoaded := false }
      passed := by
  have frames : Frame.ofEntries lane.waiting ≠ [] := by simpa [Frame.ofEntries] using waiting
  have stream : ledger.close.stream = passed ++ Frame.ofEntries lane.arrived ++
      Frame.ofEntries (Fifo.markLast lane.waiting) := by
    rw [stream_close hasBlocks, agrees.stream, Frame.markLast_append _ frames,
      Frame.ofEntries_markLast]
  rw [close_of_nonempty hasBlocks] at stream ⊢
  exact { agrees with
    nonempty := by
      intro message member
      rcases List.mem_append.mp member with earlier | last
      · exact agrees.nonempty message earlier
      · rw [List.mem_singleton.mp last]
        exact hasBlocks
    stream := stream
    loaded := by simp
    shut := fun _ => rfl }

/-- A sender with nothing left to send of its open message faces a receiver that is free. -/
theorem free (agrees : ledger.Agrees lane passed) (hasBlocks : ledger.current ≠ [])
    (allCrossed : lane.waiting = []) : lane.isPending = false ∧ ¬ lane.HoldsFinal := by
  suffices notHeld : ¬ (lane.isPending = true ∨ lane.HoldsFinal) by simpa using notHeld
  intro holds
  obtain ⟨front, block, ended⟩ := agrees.held holds
  obtain ⟨openFront, openBlock, newest⟩ := exists_stream_eq hasBlocks
  have same : front ++ [(block, true)] = openFront ++ [(openBlock, false)] := by
    rw [← ended, ← newest, agrees.stream, allCrossed]
    simp [Frame.ofEntries]
  have flags := (List.append_inj' same rfl).2
  simp at flags

def passedAtBoundary (passed : List Frame) (arrived : List Entry) : List Frame :=
  if arrived = [] then Frame.markLast passed else passed

theorem passedAtBoundary_append (passed : List Frame) (arrived : List Entry) :
    passedAtBoundary passed arrived ++ Frame.ofEntries (Fifo.markLast arrived) =
      Frame.markLast (passed ++ Frame.ofEntries arrived) := by
  cases arrived with
  | nil => simp [passedAtBoundary, Fifo.markLast, Frame.ofEntries]
  | cons entry rest =>
    rw [Frame.markLast_append _ (by simp [Frame.ofEntries]), Frame.ofEntries_markLast]
    rfl

theorem closedCrossed (agrees : ledger.Agrees lane passed) (hasBlocks : ledger.current ≠ [])
    (allCrossed : lane.waiting = []) :
    Ledger.Agrees { ledger.close with signalled := ledger.signalled ++ [ledger.crossed] }
      { lane with
        arrived := Fifo.markLast lane.arrived
        isOpen := false
        isLoaded := false
        isPending := true }
      (passedAtBoundary passed lane.arrived) := by
  obtain ⟨isClear, noFinal⟩ := agrees.free hasBlocks allCrossed
  obtain ⟨front, block, newest⟩ := exists_stream_eq hasBlocks
  have inside : passed ++ Frame.ofEntries lane.arrived = front ++ [(block, false)] := by
    rw [← newest, agrees.stream, allCrossed]
    simp [Frame.ofEntries]
  have marked : passedAtBoundary passed lane.arrived ++
      Frame.ofEntries (Fifo.markLast lane.arrived) = front ++ [(block, true)] := by
    rw [passedAtBoundary_append, inside, Frame.markLast_concat]
  have streamClosed := stream_close hasBlocks
  rw [close_of_nonempty hasBlocks] at streamClosed ⊢
  refine
    { nonempty := ?_
      read := ?_
      stream := ?_
      crossed := ?_
      signalled := ?_
      acknowledged := ?_
      confirmed := agrees.confirmed
      held := fun _ => ⟨front, block, marked⟩
      single := ?_
      loaded := by simp
      shut := fun _ => rfl }
  · intro message member
    rcases List.mem_append.mp member with earlier | last
    · exact agrees.nonempty message earlier
    · rw [List.mem_singleton.mp last]
      exact hasBlocks
  · rw [← agrees.read, passedAtBoundary]
    split <;> simp
  · refine streamClosed.trans ?_
    rw [newest, Frame.markLast_concat, marked, allCrossed]
    simp [Frame.ofEntries]
  · rw [marked, agrees.crossed, inside]
    simp
  · rw [marked, agrees.signalled, agrees.crossed, inside, Frame.endsFrom_append,
      Frame.endsFrom_append]
    simp [Frame.endsFrom]
  · simpa [isClear] using agrees.acknowledged
  · intro entry member
    apply Bool.eq_false_iff.mpr
    intro final
    exact noFinal ⟨entry, Frame.mem_dropLast_markLast member, final⟩

theorem load (agrees : ledger.Agrees lane passed) (block : Block) (readyAt : Time)
    (isOpen : lane.isOpen = true) :
    Ledger.Agrees { ledger with current := ledger.current ++ [block] }
      { lane with
        waiting := lane.waiting ++ [{ block, final := false, readyAt }]
        isLoaded := true }
      passed :=
  { agrees with
    stream := by
      have before := agrees.stream
      simp only [Ledger.stream, Frame.ofOpen, Frame.ofEntries, List.map_append] at before ⊢
      rw [← List.append_assoc, before]
      simp
    loaded := by simp
    shut := by simp [isOpen] }

/-- Of the boundaries that reached the receiver, the pending one alone is not confirmed. -/
theorem signalled_of_pending (agrees : ledger.Agrees lane passed)
    (isPending : lane.isPending = true) :
    ledger.signalled = ledger.acknowledged ++ [ledger.crossed] := by
  obtain ⟨front, block, ended⟩ := agrees.held (.inl isPending)
  have signalled : ledger.signalled = Frame.endsFrom 0 front ++ [ledger.crossed] := by
    rw [agrees.signalled, agrees.crossed, ended, Frame.endsFrom_append]
    simp [Frame.endsFrom]
  rw [agrees.acknowledged, isPending, if_pos rfl, signalled, List.dropLast_concat]

theorem confirm (agrees : ledger.Agrees lane passed) (isPending : lane.isPending = true) :
    Ledger.Agrees
      { ledger with acknowledged := ledger.signalled, confirmed := ledger.confirmed + 1 }
      { lane with isPending := false } passed :=
  { agrees with
    acknowledged := rfl
    confirmed := by
      change ledger.confirmed + 1 = ledger.signalled.length
      rw [agrees.confirmed, agrees.signalled_of_pending isPending, List.length_append,
        List.length_singleton]
    held := by
      rintro (nothing | holds)
      · cases nothing
      · exact agrees.held (.inr holds) }

theorem readOldest (agrees : ledger.Agrees lane passed) {entry : Entry} {rest : List Entry}
    (shape : lane.arrived = entry :: rest)
    (readable : ¬ (entry.final = true ∧ lane.isPending = true)) :
    Ledger.Agrees { ledger with read := ledger.read ++ [entry.block] }
      { lane with arrived := rest, isPending := lane.isPending && !entry.final }
      (passed ++ [(entry.block, entry.final)]) := by
  have crossed : passed ++ [(entry.block, entry.final)] ++ Frame.ofEntries rest =
      passed ++ Frame.ofEntries lane.arrived := by
    rw [shape]
    simp [Frame.ofEntries]
  have stillPending : (lane.isPending && !entry.final) = lane.isPending := by
    cases isPending : lane.isPending <;> simp_all
  refine { agrees with
    read := by simp [agrees.read]
    stream := ?_
    crossed := ?_
    signalled := ?_
    acknowledged := ?_
    held := ?_
    single := ?_ }
  · rw [crossed]
    exact agrees.stream
  · rw [crossed]
    exact agrees.crossed
  · rw [crossed]
    exact agrees.signalled
  · rw [stillPending]
    exact agrees.acknowledged
  · rw [stillPending, crossed]
    rintro (isPending | ⟨final, member, isFinal⟩)
    · exact agrees.held (.inl isPending)
    · exact agrees.held (.inr ⟨final, by simp [shape, member], isFinal⟩)
  · intro kept member
    refine agrees.single kept ?_
    have nonempty : rest ≠ [] := by
      rintro rfl
      simp at member
    rw [shape, List.dropLast_cons_of_ne_nil nonempty]
    exact List.mem_cons_of_mem _ member

theorem accept (agrees : ledger.Agrees lane passed) {entry : Entry} {rest : List Entry}
    (shape : lane.waiting = entry :: rest) (able : lane.CanAccept) :
    Ledger.Agrees (ledger.noteAll sender (Link.crossing sender entry))
      { lane with
        waiting := rest
        arrived := lane.arrived ++ [entry]
        isPending := entry.final }
      passed := by
  obtain ⟨-, isClear, noFinal⟩ := able
  have crossed : passed ++ Frame.ofEntries (lane.arrived ++ [entry]) =
      passed ++ Frame.ofEntries lane.arrived ++ [(entry.block, entry.final)] := by
    simp [Frame.ofEntries]
  have stream : ledger.stream = passed ++ Frame.ofEntries (lane.arrived ++ [entry]) ++
      Frame.ofEntries rest := by
    rw [agrees.stream, shape, crossed]
    simp [Frame.ofEntries]
  have acknowledged : ledger.acknowledged = ledger.signalled := by
    simpa [isClear] using agrees.acknowledged
  have single : ∀ held ∈ (lane.arrived ++ [entry]).dropLast, held.final = false := by
    intro held member
    rw [List.dropLast_concat] at member
    exact Bool.eq_false_iff.mpr fun final => noFinal ⟨held, member, final⟩
  have length : (passed ++ Frame.ofEntries (lane.arrived ++ [entry])).length =
      ledger.crossed + 1 := by
    rw [crossed, agrees.crossed, List.length_append, List.length_singleton]
  cases final : entry.final with
  | false =>
    have noted : ledger.noteAll sender (Link.crossing sender entry) =
        { ledger with crossed := ledger.crossed + 1 } := by
      simp [Link.crossing, final, note]
    rw [noted]
    refine { agrees with
      stream := stream
      crossed := length.symm
      signalled := ?_
      acknowledged := acknowledged
      held := ?_
      single := single }
    · rw [crossed, Frame.endsFrom_append, ← agrees.signalled, final]
      simp [Frame.endsFrom]
    · rintro (nothing | ⟨held, member, isFinal⟩)
      · cases nothing
      · rcases List.mem_append.mp member with earlier | last
        · exact absurd ⟨held, earlier, isFinal⟩ noFinal
        · rw [List.mem_singleton.mp last, final] at isFinal
          cases isFinal
  | true =>
    have noted : ledger.noteAll sender (Link.crossing sender entry) =
        { ledger with
          crossed := ledger.crossed + 1
          signalled := ledger.signalled ++ [ledger.crossed + 1] } := by
      simp [Link.crossing, final, note]
    rw [noted]
    refine { agrees with
      stream := stream
      crossed := length.symm
      signalled := ?_
      acknowledged := ?_
      held := fun _ => ⟨passed ++ Frame.ofEntries lane.arrived, entry.block, ?_⟩
      single := single }
    · rw [crossed, Frame.endsFrom_append, ← agrees.signalled, final]
      simp [Frame.endsFrom, agrees.crossed]
    · simpa using acknowledged
    · rw [crossed, final]

theorem move (agrees : ledger.Agrees lane passed) {events : List Event} {next : Lane}
    (move : Lane.Move sender lane events next) :
    ∃ passed', (ledger.noteAll sender events).Agrees next passed' := by
  cases move with
  | elsewhere foreign =>
    rw [noteAll_cons, note_elsewhere ledger foreign]
    exact ⟨passed, agrees⟩
  | opened isShut => exact ⟨passed, agrees.opened isShut⟩
  | closedNone isShut =>
    exact ⟨passed, { agrees with loaded := by simp [agrees.shut isShut] }⟩
  | closedEmpty isOpen isEmpty =>
    have noBlocks : ledger.current = [] := by
      by_cases blocks : ledger.current = []
      · exact blocks
      · simp [agrees.loaded.mpr blocks] at isEmpty
    have closed := agrees.closedEmpty noBlocks
    exact ⟨passed, by simpa [note, close_of_empty noBlocks, isEmpty] using closed⟩
  | closedWaiting isOpen isLoaded waiting =>
    have closed := agrees.closedWaiting (agrees.loaded.mp isLoaded) waiting
    exact ⟨passed, by simpa [note] using closed⟩
  | closedCrossed isOpen isLoaded allCrossed =>
    have closed := agrees.closedCrossed (agrees.loaded.mp isLoaded) allCrossed
    exact ⟨_, by simpa [note] using closed⟩
  | loaded block readyAt isOpen room =>
    exact ⟨passed, by simpa [note] using agrees.load block readyAt isOpen⟩
  | crossed shape able => exact ⟨passed, agrees.accept shape able⟩
  | confirmed isPending => exact ⟨passed, by simpa [note] using agrees.confirm isPending⟩
  | read shape readable => exact ⟨_, by simpa [note] using agrees.readOldest shape readable⟩
  | reset => exact ⟨[], start⟩

end Ledger.Agrees

/-- Something that holds of every event of a log, given what the log has told before it. -/
def Ledger.Always (sender : Side) (claim : Ledger → Event → Prop) (log : List Event) : Prop :=
  ∀ before event after, log = before ++ event :: after → claim (Ledger.ofLog sender before) event

namespace Lane.Trace

variable {sender : Side} {lane : Lane} {log : List Event}

theorem agrees (trace : Lane.Trace sender .idle log lane) :
    ∃ passed, (Ledger.ofLog sender log).Agrees lane passed := by
  induction trace with
  | rest => exact ⟨[], .start⟩
  | next _ move inductionHypothesis =>
    obtain ⟨passed, agreement⟩ := inductionHypothesis
    rw [Ledger.ofLog, Ledger.noteAll_append]
    exact agreement.move move

/-- What holds of the events of every move from a lane that agrees with its ledger holds of
the whole log. -/
theorem always (trace : Lane.Trace sender .idle log lane) {claim : Ledger → Event → Prop}
    (moves : ∀ {ledger : Ledger} {lane : Lane} {passed : List Frame} {events : List Event}
      {next : Lane}, ledger.Agrees lane passed → Lane.Move sender lane events next →
      ∀ before event after, events = before ++ event :: after →
        claim (ledger.noteAll sender before) event) :
    Ledger.Always sender claim log := by
  induction trace with
  | rest =>
    intro before event after shape
    simp at shape
  | @next earlier events middle last trace move inductionHypothesis =>
    intro before event after shape
    obtain ⟨passed, agreement⟩ := trace.agrees
    rcases List.append_eq_append_iff.mp shape with ⟨extra, rfl, inside⟩ | ⟨extra, inside, rest⟩
    · rw [Ledger.ofLog, Ledger.noteAll_append]
      exact moves agreement move extra event after inside
    · cases extra with
      | nil =>
        rw [List.append_nil] at inside
        subst inside
        exact moves agreement move [] event after (by simpa using rest.symm)
      | cons head tail =>
        obtain ⟨rfl, -⟩ := List.cons.inj rest
        exact inductionHypothesis before event tail inside

end Lane.Trace

end BlockLink
