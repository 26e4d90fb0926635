import BlockLink.Proofs.Run

/-!
Message boundaries on a lane.

No boundary is lost, merged or misplaced: every closed message that holds a block
accounts for one confirmation, for the boundary that is pending, or for a mark
that still waits with the sender, and a block carries a mark exactly when it ends
a message. What is counted is what the calls find: a confirmation counts if a
boundary is pending, and the end of a message if one is open that holds a block.
A boundary also holds: nothing of a later message crosses before the receiver has
read and confirmed all that came before.
-/

namespace BlockLink

namespace Frame

variable {start position : Nat}

theorem mem_endsFrom {frames : List Frame} :
    position ∈ endsFrom start frames ↔
      ∃ index block, frames[index]? = some (block, true) ∧ position = start + index + 1 := by
  induction frames generalizing start with
  | nil => simp [endsFrom]
  | cons frame frames inductionHypothesis =>
    rcases frame with ⟨head, final⟩
    constructor
    · intro member
      have later : position ∈ endsFrom (start + 1) frames →
          ∃ index block, ((head, final) :: frames)[index]? = some (block, true) ∧
            position = start + index + 1 := by
        intro inner
        obtain ⟨index, block, found, shape⟩ := inductionHypothesis.mp inner
        exact ⟨index + 1, block, by simpa using found, by omega⟩
      cases final with
      | false => exact later member
      | true =>
        rcases List.mem_cons.mp member with rfl | inner
        · exact ⟨0, head, rfl, rfl⟩
        · exact later inner
    · rintro ⟨index, block, found, shape⟩
      cases index with
      | zero =>
        obtain ⟨-, rfl⟩ : head = block ∧ final = true := by simpa using found
        simp [endsFrom, shape]
      | succ index =>
        have inner : position ∈ endsFrom (start + 1) frames :=
          inductionHypothesis.mpr ⟨index, block, by simpa using found, by omega⟩
        cases final with
        | false => exact inner
        | true => exact List.mem_cons_of_mem _ inner

theorem mem_endsFrom_closed {messages : List (List Block)}
    (nonempty : ∀ message ∈ messages, message ≠ []) :
    position ∈ endsFrom start (messages.flatMap ofClosed) ↔
      ∃ earlier later, messages = earlier ++ later ∧ earlier ≠ [] ∧
        start + earlier.flatten.length = position := by
  induction messages generalizing start with
  | nil =>
    constructor
    · simp [endsFrom]
    · rintro ⟨earlier, later, shape, hasMessage, -⟩
      exact absurd (List.append_eq_nil_iff.mp shape.symm).1 hasMessage
  | cons message messages inductionHypothesis =>
    have inner : position ∈ endsFrom (start + message.length) (messages.flatMap ofClosed) ↔ _ :=
      inductionHypothesis fun later member => nonempty later (by simp [member])
    have size : (ofClosed message).length = message.length := by simp [ofClosed, ofOpen]
    rw [List.flatMap_cons, endsFrom_append, endsFrom_ofClosed start (nonempty message (by simp)),
      List.singleton_append, List.mem_cons, size, inner]
    constructor
    · rintro (rfl | ⟨earlier, later, rfl, -, shape⟩)
      · exact ⟨[message], messages, rfl, by simp, by simp⟩
      · exact ⟨message :: earlier, later, rfl, by simp, by simp [← shape, Nat.add_assoc]⟩
    · rintro ⟨earlier, later, shape, hasMessage, total⟩
      cases earlier with
      | nil => exact absurd rfl hasMessage
      | cons first earlier =>
        obtain ⟨rfl, rfl⟩ := List.cons.inj shape
        cases earlier with
        | nil => exact .inl (by simp [← total])
        | cons second earlier =>
          exact .inr ⟨second :: earlier, later, rfl, by simp, by simp [← total, Nat.add_assoc]⟩

theorem length_endsFrom_closed {messages : List (List Block)}
    (nonempty : ∀ message ∈ messages, message ≠ []) :
    (endsFrom start (messages.flatMap ofClosed)).length = messages.length := by
  induction messages generalizing start with
  | nil => rfl
  | cons message messages inductionHypothesis =>
    rw [List.flatMap_cons, endsFrom_append, endsFrom_ofClosed start (nonempty message (by simp)),
      List.length_append, inductionHypothesis fun later member => nonempty later (by simp [member])]
    simp [Nat.add_comm]

theorem length_flatMap_ofClosed (messages : List (List Block)) :
    (messages.flatMap ofClosed).length = messages.flatten.length := by
  simp [List.length_flatMap, List.length_flatten, ofClosed, ofOpen]

end Frame

namespace Ledger

theorem flatten_prefix_loaded {ledger : Ledger} {earlier : List (List Block)}
    (within : earlier <+: ledger.closed) : earlier.flatten <+: ledger.loaded := by
  obtain ⟨later, split⟩ := within
  rw [loaded, ← split, List.flatten_append, List.append_assoc]
  exact List.prefix_append _ _

/-- Whether a closed message ends when `position` blocks have been loaded. -/
def EndsAt (ledger : Ledger) (position : Nat) : Prop :=
  ∃ earlier later, ledger.closed = earlier ++ later ∧ earlier ≠ [] ∧
    earlier.flatten.length = position

/-- Whether the receiver has confirmed every boundary that reached it and read every block
in front of one. -/
def Cleared (ledger : Ledger) : Prop :=
  ledger.acknowledged = ledger.signalled ∧
    ∀ position ∈ ledger.signalled, position ≤ ledger.read.length

/-- Whether a block that crosses now finds every message before its own read and confirmed. -/
def Admits (ledger : Ledger) (block : Block) : Prop :=
  ledger.loaded[ledger.crossed]? = some block ∧
    ∀ earlier later, ledger.closed = earlier ++ later →
      earlier.flatten.length ≤ ledger.crossed →
        earlier.flatten <+: ledger.read ∧
          (earlier ≠ [] → earlier.flatten.length ∈ ledger.acknowledged)

/-- Whether a block that is read now has its boundary confirmed, if it ends a message. -/
def Releases (ledger : Ledger) (block : Block) : Prop :=
  ledger.loaded[ledger.read.length]? = some block ∧
    (ledger.EndsAt (ledger.read.length + 1) →
      ledger.read.length + 1 ∈ ledger.acknowledged)

namespace Agrees

variable {sender : Side} {ledger : Ledger} {lane : Lane} {passed : List Frame}

theorem endsAt_iff (agrees : ledger.Agrees lane passed) (position : Nat) :
    ledger.EndsAt position ↔ position ∈ Frame.endsFrom 0 ledger.stream := by
  rw [Ledger.stream, Frame.endsFrom_append, Frame.endsFrom_ofOpen, List.append_nil,
    Frame.mem_endsFrom_closed agrees.nonempty]
  simp [EndsAt]

theorem length_passed (agrees : ledger.Agrees lane passed) :
    passed.length = ledger.read.length := by
  rw [← agrees.read, List.length_map]

theorem loaded_eq (agrees : ledger.Agrees lane passed) :
    ledger.loaded = ledger.read ++ (lane.arrived ++ lane.waiting).map Entry.block := by
  rw [← map_fst_stream, agrees.stream, ← agrees.read]
  simp

theorem crossed_eq (agrees : ledger.Agrees lane passed) :
    ledger.crossed = ledger.read.length + lane.arrived.length := by
  rw [agrees.crossed, List.length_append, Frame.length_ofEntries, agrees.length_passed]

theorem read_prefix (agrees : ledger.Agrees lane passed) : ledger.read <+: ledger.loaded := by
  rw [agrees.loaded_eq]
  exact List.prefix_append _ _

/-- A mark stands on exactly the blocks that end a closed message. -/
theorem final_iff (agrees : ledger.Agrees lane passed) (index : Nat) {entry : Entry}
    (found : (lane.arrived ++ lane.waiting)[index]? = some entry) :
    entry.final = true ↔ ledger.EndsAt (ledger.read.length + index + 1) := by
  have frame : ledger.stream[ledger.read.length + index]? = some (entry.block, entry.final) := by
    rw [agrees.stream, List.append_assoc, ← Frame.ofEntries_append, ← agrees.length_passed,
      List.getElem?_append_right (by omega), Nat.add_sub_cancel_left, Frame.ofEntries,
      List.getElem?_map, found]
    rfl
  rw [agrees.endsAt_iff, Frame.mem_endsFrom]
  constructor
  · intro final
    exact ⟨_, entry.block, by rw [frame, final], by omega⟩
  · rintro ⟨place, block, marked, shape⟩
    obtain rfl : place = ledger.read.length + index := by omega
    rw [frame] at marked
    exact (Prod.mk.inj (Option.some.inj marked)).2

/-- Every message end is confirmed, pending, or still with the sender. -/
theorem length_closed (agrees : ledger.Agrees lane passed) :
    ledger.closed.length =
      ledger.confirmed + lane.isPending.toNat + lane.waiting.countP Entry.final := by
  have total : ledger.closed.length = (Frame.endsFrom 0 ledger.stream).length := by
    rw [Ledger.stream, Frame.endsFrom_append, Frame.endsFrom_ofOpen, List.append_nil,
      Frame.length_endsFrom_closed agrees.nonempty]
  have waiting : (Frame.ofEntries lane.waiting).countP Prod.snd =
      lane.waiting.countP Entry.final := by
    rw [Frame.ofEntries, List.countP_map]
    rfl
  rw [total, agrees.stream, Frame.endsFrom_append, List.length_append, ← agrees.signalled,
    Frame.length_endsFrom, waiting, agrees.confirmed, agrees.acknowledged]
  cases isPending : lane.isPending with
  | false => simp
  | true =>
    simp [agrees.signalled_of_pending isPending]

/-- A receiver that has no boundary pending and holds no mark has dealt with every one. -/
theorem cleared (agrees : ledger.Agrees lane passed) (isClear : lane.isPending = false)
    (noFinal : ¬ lane.HoldsFinal) : ledger.Cleared := by
  constructor
  · rw [agrees.acknowledged, isClear]
    simp
  · intro position member
    have plain : ∀ frame ∈ Frame.ofEntries lane.arrived, frame.2 = false := by
      intro frame member
      obtain ⟨entry, arrived, rfl⟩ := List.mem_map.mp member
      exact Bool.eq_false_iff.mpr fun final => noFinal ⟨entry, arrived, final⟩
    rw [agrees.signalled, Frame.endsFrom_append, Frame.endsFrom_eq_nil _ plain,
      List.append_nil] at member
    have bounds := Frame.bounds_of_mem_endsFrom 0 member
    rw [agrees.length_passed] at bounds
    omega

/-- The open message ends as a further one if there is one and it holds a block. -/
theorem closed_close (agrees : ledger.Agrees lane passed) :
    ledger.close.closed =
      ledger.closed ++ if lane.isOpen && lane.isLoaded then [ledger.current] else [] := by
  by_cases isEmpty : ledger.current = []
  · have unloaded : lane.isLoaded = false :=
      Bool.eq_false_iff.mpr fun isLoaded => agrees.loaded.mp isLoaded isEmpty
    rw [close_of_empty isEmpty, unloaded, Bool.and_false]
    exact (List.append_nil _).symm
  · have isLoaded : lane.isLoaded = true := agrees.loaded.mpr isEmpty
    have isOpen : lane.isOpen = true :=
      Bool.of_not_eq_false fun isShut => isEmpty (agrees.shut isShut)
    rw [close_of_nonempty isEmpty, isOpen, isLoaded]
    rfl

theorem mem_signalled (agrees : ledger.Agrees lane passed) {position : Nat}
    (ends : ledger.EndsAt position) (reached : position ≤ ledger.crossed) :
    position ∈ ledger.signalled := by
  rw [agrees.endsAt_iff, agrees.stream, Frame.endsFrom_append, ← agrees.signalled] at ends
  rcases List.mem_append.mp ends with arrived | ahead
  · exact arrived
  · have bounds := Frame.bounds_of_mem_endsFrom _ ahead
    have crossed := agrees.crossed
    omega

theorem admits (agrees : ledger.Agrees lane passed) {entry : Entry} {rest : List Entry}
    (shape : lane.waiting = entry :: rest) (able : lane.CanAccept) :
    ledger.Admits entry.block := by
  obtain ⟨acknowledged, reads⟩ := agrees.cleared able.2.1 able.2.2
  refine ⟨?_, ?_⟩
  · rw [agrees.loaded_eq, shape, agrees.crossed_eq]
    simp
  · intro earlier later split reached
    have inside := flatten_prefix_loaded ⟨later, split.symm⟩
    have signalled : earlier ≠ [] → earlier.flatten.length ∈ ledger.signalled := by
      intro hasMessage
      exact agrees.mem_signalled ⟨earlier, later, split, hasMessage, rfl⟩ reached
    refine ⟨?_, fun hasMessage => acknowledged ▸ signalled hasMessage⟩
    refine List.prefix_of_prefix_length_le inside ?_ ?_
    · exact agrees.read_prefix
    · cases earlier with
      | nil => simp
      | cons message earlier => exact reads _ (signalled (by simp))

theorem releases (agrees : ledger.Agrees lane passed) {entry : Entry} {rest : List Entry}
    (shape : lane.arrived = entry :: rest)
    (readable : ¬ (entry.final = true ∧ lane.isPending = true)) :
    ledger.Releases entry.block := by
  refine ⟨by simp [agrees.loaded_eq, shape], ?_⟩
  intro ends
  have final : entry.final = true :=
    (agrees.final_iff 0 (by simp [shape])).mpr ends
  have isClear : lane.isPending = false := by
    apply Bool.eq_false_iff.mpr
    intro isPending
    exact readable ⟨final, isPending⟩
  rw [agrees.acknowledged, isClear]
  refine agrees.mem_signalled ends ?_
  rw [agrees.crossed_eq, shape]
  simp

theorem exists_beyond (agrees : ledger.Agrees lane passed) {earlier : List (List Block)}
    (within : earlier <+: ledger.closed) (reached : earlier.flatten.length ≤ ledger.crossed) :
    ∃ beyond, passed ++ Frame.ofEntries lane.arrived = earlier.flatMap Frame.ofClosed ++ beyond ∧
      earlier.flatten.length + beyond.length = ledger.crossed := by
  obtain ⟨later, split⟩ := within
  have messages : earlier.flatMap Frame.ofClosed <+: ledger.stream := by
    rw [Ledger.stream, ← split, List.flatMap_append, List.append_assoc]
    exact List.prefix_append _ _
  have frames : passed ++ Frame.ofEntries lane.arrived <+: ledger.stream := by
    rw [agrees.stream]
    exact List.prefix_append _ _
  have shorter : (earlier.flatMap Frame.ofClosed).length ≤
      (passed ++ Frame.ofEntries lane.arrived).length := by
    rw [Frame.length_flatMap_ofClosed, ← agrees.crossed]
    exact reached
  obtain ⟨beyond, shape⟩ := List.prefix_of_prefix_length_le messages frames shorter
  refine ⟨beyond, shape.symm, ?_⟩
  rw [agrees.crossed, ← shape, List.length_append, Frame.length_flatMap_ofClosed]

theorem length_signalled (agrees : ledger.Agrees lane passed) {earlier : List (List Block)}
    (within : earlier <+: ledger.closed) {beyond : List Frame}
    (shape : passed ++ Frame.ofEntries lane.arrived =
      earlier.flatMap Frame.ofClosed ++ beyond) :
    ledger.signalled.length = earlier.length + beyond.countP Prod.snd := by
  have nonempty : ∀ message ∈ earlier, message ≠ [] := by
    intro message member
    exact agrees.nonempty message (within.subset member)
  rw [agrees.signalled, shape, Frame.endsFrom_append, List.length_append,
    Frame.length_endsFrom_closed nonempty, Frame.length_endsFrom]

/-- A message is confirmed by the time that a further block crosses. -/
theorem length_le_confirmed (agrees : ledger.Agrees lane passed) {earlier : List (List Block)}
    (within : earlier <+: ledger.closed) (overtaken : earlier.flatten.length < ledger.crossed) :
    earlier.length ≤ ledger.confirmed := by
  obtain ⟨beyond, shape, size⟩ := agrees.exists_beyond within (by omega)
  have count := agrees.length_signalled within shape
  rw [agrees.confirmed]
  cases isPending : lane.isPending with
  | false =>
    rw [agrees.acknowledged, isPending]
    simp [count]
  | true =>
    -- The pending boundary is the newest frame, and so it lies behind these messages.
    obtain ⟨front, block, newest⟩ := agrees.held (.inl isPending)
    have signalled := congrArg List.length (agrees.signalled_of_pending isPending)
    rw [List.length_append, List.length_singleton] at signalled
    rcases List.eq_nil_or_concat beyond with rfl | ⟨more, frame, rfl⟩
    · rw [List.length_nil] at size
      omega
    · rw [newest, List.concat_eq_append, ← List.append_assoc] at shape
      obtain rfl : (block, true) = frame := by
        simpa using (List.append_inj' shape rfl).2
      simp at count
      omega

/-- The messages up to the pending boundary are those confirmed and one more. -/
theorem length_of_pending (agrees : ledger.Agrees lane passed) (isPending : lane.isPending = true)
    {earlier : List (List Block)} (within : earlier <+: ledger.closed)
    (reached : earlier.flatten.length = ledger.crossed) :
    earlier.length = ledger.confirmed + 1 := by
  obtain ⟨beyond, shape, size⟩ := agrees.exists_beyond within (by omega)
  have count := agrees.length_signalled within shape
  have nothing : beyond = [] := List.eq_nil_of_length_eq_zero (by omega)
  rw [agrees.signalled_of_pending isPending, nothing] at count
  simpa [agrees.confirmed] using count.symm

theorem exists_pending (agrees : ledger.Agrees lane passed) (isPending : lane.isPending = true) :
    ∃ earlier, earlier <+: ledger.closed ∧ earlier.flatten.length = ledger.crossed := by
  have signalled : ledger.crossed ∈ ledger.signalled := by
    simp [agrees.signalled_of_pending isPending]
  have ends : ledger.EndsAt ledger.crossed := by
    rw [agrees.endsAt_iff, agrees.stream, Frame.endsFrom_append, ← agrees.signalled]
    exact List.mem_append_left _ signalled
  obtain ⟨earlier, later, split, -, total⟩ := ends
  exact ⟨earlier, ⟨later, split.symm⟩, total⟩

end Agrees

end Ledger

/-- Closing a message marks a boundary at the peer only after all blocks have crossed. -/
theorem Link.crossed_of_boundaryMarked {link : Link} {side : Side} {waiting : Nat}
    (marked : .station side.peer (.boundaryMarked waiting) ∈
      ((closeMessage side).run link).events) :
    (link.lane side).isLoaded = true ∧ (link.lane side).waiting = [] := by
  rw [closeMessage_eq, Step.run_bind, List.mem_append] at marked
  have placed := marked.resolve_right fun delivered => delivery_law.settle _ _ delivered
  have finished := finished link side
  generalize (finish side).run link = outcome at finished placed
  cases finished with
  | shut | empty | waiting => simp at placed
  | crossed isOpen isLoaded crossed => exact ⟨isLoaded, List.eq_nil_of_length_eq_zero crossed⟩

namespace Link

variable {link : Link} {log : List Event} {sender : Side}

/-- The end of a message is reported if it finds one open, and then once. -/
theorem count_messageClosed (link : Link) (side : Side) :
    ((finish side).run link).events.count (.station side .messageClosed) =
      (link.station side).messageOpen.toNat := by
  have finished := finished link side
  generalize (finish side).run link = outcome at finished ⊢
  cases finished with
  | shut isOpen | empty isOpen | waiting isOpen | crossed isOpen => simp [isOpen]

theorem alike_finish {ledger : Ledger}
    (shut : (link.station sender).messageOpen = false → ledger.current = []) :
    (ledger.noteAll sender ((finish sender).run link).events).Alike ledger.close := by
  have finished := finished link sender
  generalize (finish sender).run link = outcome at finished ⊢
  cases finished with
  | shut isShut =>
    rw [Ledger.close_of_empty (shut isShut)]
    exact .refl ledger
  | empty | waiting => simpa [Ledger.note] using Ledger.Alike.refl ledger.close
  | crossed => constructor <;> simp [Ledger.note]

/-- A confirmation is reported and counted if it finds a boundary pending, and then once. -/
theorem confirmed_callConfirm (route : Route) (valid : (link.station sender.peer).Watermarked) :
    let found := ((charges route.accesses).run link).state
    let isPending := (found.station sender.peer).boundaryPending
    let events := ((call route sender.peer .confirm).run link).events
    events.count (.station sender.peer .boundaryConfirmed) = isPending.toNat ∧
      (Ledger.ofLog sender (log ++ events)).confirmed =
        (Ledger.ofLog sender log).confirmed + isPending.toNat := by
  intro found isPending events
  have amid : Event.Amid (if isPending then [.station sender.peer .boundaryConfirmed] else [])
      events := (run_callConfirm route sender.peer link valid).2
  rw [amid.count_eq id, (Ledger.Alike.of_log sender log amid).confirmed]
  cases isPending with
  | true => simp [Ledger.note]
  | false => exact ⟨rfl, rfl⟩

namespace Follows

variable (follows : link.Follows log)
include follows

/-- Some accesses later the ledger agrees with the lane, and nothing that the sides do is new
to it. -/
theorem exists_agrees_charges (sender : Side) (count : Nat) :
    ∃ (ledger : Ledger) (passed : List Frame),
      ledger.Agrees (((charges count).run link).state.lane sender) passed ∧
        ledger.Alike (.ofLog sender log) := by
  obtain ⟨passed, agrees⟩ := (follows.step (trace_law.charges count)).agrees sender
  have delivers := Event.amid_nil (delivery_law.charges count link)
  exact ⟨_, passed, agrees, .of_log sender log delivers⟩

theorem alike_finish (sender : Side) (count : Nat) :
    ((Ledger.ofLog sender log).noteAll sender
        ((finish sender).run ((charges count).run link).state).events).Alike
      (Ledger.ofLog sender log).close := by
  obtain ⟨ledger, passed, agrees, alike⟩ := follows.exists_agrees_charges sender count
  apply Link.alike_finish
  intro isShut
  rw [← alike.current]
  exact agrees.shut isShut

/-- The end of a message is reported if it finds one open, and counted if that holds a block. -/
theorem closed_callClose (route : Route) (valid : (link.station sender).Watermarked) :
    let source := ((charges route.accesses).run link).state.station sender
    let ledger := Ledger.ofLog sender log
    let events := ((call route sender .closeMessage).run link).events
    events.count (.station sender .messageClosed) = source.messageOpen.toNat ∧
      (Ledger.ofLog sender (log ++ events)).closed =
        ledger.closed ++
          if source.messageOpen && source.messageLoaded then [ledger.current] else [] := by
  intro source ledger events
  obtain ⟨later, passed, agrees, alike⟩ := follows.exists_agrees_charges sender route.accesses
  have amid := (run_callClose route sender link valid).2
  have noted := (Ledger.Alike.of_log sender log amid).trans
    (follows.alike_finish sender route.accesses)
  refine ⟨(amid.count_eq id).trans (count_messageClosed _ sender), ?_⟩
  rw [noted.closed, ← alike.close.closed, agrees.closed_close, alike.closed, alike.current]
  rfl

end Follows

end Link

namespace Lane.Trace

variable {sender : Side} {lane : Lane} {log : List Event}

theorem first_of_not_mem {first event : Event} {rest before after : List Event}
    (shape : first :: rest = before ++ event :: after) (absent : event ∉ rest) :
    before = [] ∧ event = first := by
  cases before with
  | nil => exact ⟨rfl, (List.cons.inj shape).1.symm⟩
  | cons head tail => exact absurd (by simp [(List.cons.inj shape).2]) absent

theorem always_cleared (trace : Lane.Trace sender .idle log lane) :
    Ledger.Always sender
      (fun ledger event => ∀ waiting,
        event = .station sender.peer (.boundaryMarked waiting) → ledger.Cleared) log := by
  refine trace.always ?_
  rintro ledger lane passed events next agrees move before event after shape waiting rfl
  have member : .station sender.peer (.boundaryMarked waiting) ∈ events := by simp [shape]
  cases move with
  | elsewhere foreign =>
    rw [← List.mem_singleton.mp member] at foreign
    exact absurd rfl foreign
  | crossed =>
    rw [Link.crossing, List.mem_cons] at member
    rcases member with nothing | final
    · cases nothing
    · split at final <;> simp at final
  | closedCrossed isOpen isLoaded allCrossed =>
    obtain ⟨isClear, noFinal⟩ := agrees.free (agrees.loaded.mp isLoaded) allCrossed
    have behindClose : before = [.station sender .messageClosed] := by
      cases before with
      | nil => simp at shape
      | cons head tail =>
        obtain ⟨rfl, rest⟩ := List.cons.inj shape
        cases tail with
        | nil => rfl
        | cons => simp at rest
    have cleared := agrees.cleared isClear noFinal
    rw [behindClose]
    simpa [Ledger.note, Ledger.Cleared] using cleared
  | opened | closedNone | closedEmpty | closedWaiting | loaded | confirmed | read | reset =>
    simp at member

theorem always_admits (trace : Lane.Trace sender .idle log lane) :
    Ledger.Always sender
      (fun ledger event => ∀ block, event = .crossed sender block → ledger.Admits block) log := by
  refine trace.always ?_
  rintro ledger lane passed events next agrees move before event after shape block rfl
  have member : .crossed sender block ∈ events := by simp [shape]
  cases move with
  | elsewhere foreign =>
    rw [← List.mem_singleton.mp member] at foreign
    exact absurd rfl foreign
  | @crossed entry rest waiting able =>
    have absent : .crossed sender block ∉
        if entry.final then [Event.station sender.peer .finalArrived] else [] := by
      split <;> simp
    obtain ⟨rfl, same⟩ := first_of_not_mem shape absent
    cases same
    exact agrees.admits waiting able
  | opened | closedNone | closedEmpty | closedWaiting | closedCrossed | loaded | confirmed | read
  | reset => simp at member

theorem always_releases (trace : Lane.Trace sender .idle log lane) :
    Ledger.Always sender
      (fun ledger event => ∀ block, event = .read sender.peer block → ledger.Releases block)
      log := by
  refine trace.always ?_
  rintro ledger lane passed events next agrees move before event after shape block rfl
  have member : .read sender.peer block ∈ events := by simp [shape]
  cases move with
  | elsewhere foreign =>
    rw [← List.mem_singleton.mp member] at foreign
    exact absurd rfl foreign
  | crossed =>
    rw [Link.crossing, List.mem_cons] at member
    rcases member with nothing | final
    · cases nothing
    · split at final <;> simp at final
  | read arrived readable =>
    obtain ⟨rfl, same⟩ := first_of_not_mem shape (by simp)
    cases same
    exact agrees.releases arrived readable
  | opened | closedNone | closedEmpty | closedWaiting | closedCrossed | loaded | confirmed
  | reset => simp at member

end Lane.Trace

namespace Run

variable (run : Run) (sender : Side)

/-- No message boundary is lost, merged or misplaced. A boundary is placed at the receiver
only when it has dealt with every one before. -/
theorem boundaries_conserved :
    let ledger := run.ledger sender
    let source := run.link.station sender
    let target := run.link.station sender.peer
    ledger.closed.length =
        ledger.confirmed + target.boundaryPending.toNat + source.tx.entries.countP Entry.final ∧
      ledger.loaded = ledger.read ++ (target.rx.entries ++ source.tx.entries).map Entry.block ∧
      (∀ index entry, (target.rx.entries ++ source.tx.entries)[index]? = some entry →
        (entry.final = true ↔ ledger.EndsAt (ledger.read.length + index + 1))) ∧
      (∀ waiting,
        .station sender.peer (.boundaryMarked waiting) ∈
            ((Link.closeMessage sender).run run.link).events →
          target.boundaryPending = false ∧ ¬ target.rx.HoldsFinal) ∧
      Ledger.Always sender
        (fun ledger event => ∀ waiting,
          event = .station sender.peer (.boundaryMarked waiting) → ledger.Cleared)
        run.log := by
  obtain ⟨passed, agrees⟩ := run.agrees sender
  refine ⟨agrees.length_closed, agrees.loaded_eq, fun index entry => agrees.final_iff index, ?_, ?_⟩
  · intro waiting marked
    obtain ⟨isLoaded, allCrossed⟩ := Link.crossed_of_boundaryMarked marked
    exact agrees.free (agrees.loaded.mp isLoaded) allCrossed
  · exact (run.trace sender).always_cleared

/-- The ledger of a run counts what the calls find on the link. A confirmation is reported and
counted exactly if it finds a boundary pending. The end of a message is reported exactly if it
finds one open, and counted exactly if that holds a block. -/
theorem boundaries_counted (route : Route) :
    let ledger := run.ledger sender
    let found := ((Link.charges route.accesses).run run.link).state
    let source := found.station sender
    let target := found.station sender.peer
    let confirming := ((Link.call route sender.peer .confirm).run run.link).events
    let closing := ((Link.call route sender .closeMessage).run run.link).events
    (confirming.count (.station sender.peer .boundaryConfirmed) = target.boundaryPending.toNat ∧
      (Ledger.ofLog sender (run.log ++ confirming)).confirmed =
        ledger.confirmed + target.boundaryPending.toNat) ∧
    closing.count (.station sender .messageClosed) = source.messageOpen.toNat ∧
      (Ledger.ofLog sender (run.log ++ closing)).closed =
        ledger.closed ++
          if source.messageOpen && source.messageLoaded then [ledger.current] else [] :=
  ⟨Link.confirmed_callConfirm route (run.watermarked.2 sender.peer),
    run.follows.closed_callClose route (run.watermarked.2 sender)⟩

/-- A block of a later message crosses only after all earlier messages were read and
confirmed, and a final block is read only after its boundary was confirmed. -/
theorem boundary_holds :
    let ledger := run.ledger sender
    let target := run.link.station sender.peer
    Ledger.Always sender
        (fun ledger event => ∀ block, event = .crossed sender block → ledger.Admits block)
        run.log ∧
      Ledger.Always sender
        (fun ledger event => ∀ block, event = .read sender.peer block → ledger.Releases block)
        run.log ∧
      (∀ entry rest, target.rx.entries = entry :: rest → entry.final = true →
        target.peek = .ok entry.block → ledger.read.length + 1 ∈ ledger.acknowledged) := by
  obtain ⟨passed, agrees⟩ := run.agrees sender
  refine ⟨(run.trace sender).always_admits, (run.trace sender).always_releases, ?_⟩
  intro entry rest shape final shown
  have arrived : (run.link.lane sender).arrived = entry :: rest := shape
  obtain ⟨_, _, oldest, -, readable⟩ := (Station.peek_eq_ok_iff _).mp shown
  obtain ⟨rfl, rfl⟩ := List.cons.inj (shape.symm.trans oldest)
  exact (agrees.releases arrived readable).2 ((agrees.final_iff 0 (by simp [arrived])).mp final)

end Run

end BlockLink
