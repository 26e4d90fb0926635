import BlockLink.Proofs.Burst
import BlockLink.Proofs.History
import BlockLink.Proofs.Lasting

/-!
Driver calls with the peer in between.

The driver decides from one STATUS word and then makes four more accesses. A load rests
on the message and the room of its own side, and the peer can only add to the room. A
read rests on the oldest block, and there is one thing that the peer can do to it: if
it ends its message when that block is all that is left, the block is held back, and
the rest of the window reads as zero.
-/

namespace BlockLink

namespace Moment

/-- Whether an access asks for the end of the message of its side. -/
def EndsMessage (moment : Moment) : Prop :=
  ∃ word, moment.access = .write Register.control.address word ∧
    ControlWord.txEnd.isSet word = true

/-- Whether the peer of a side ends its message when an entry is all that is left of it: none
of its blocks waits, and the side has received no other that it has not read. -/
structure EndsOver (side : Side) (head : Entry) (moment : Moment) : Prop where
  byPeer : moment.side = side.peer
  ends : moment.EndsMessage
  isOpen : (moment.charged.station side.peer).messageOpen = true
  isLoaded : (moment.charged.station side.peer).messageLoaded = true
  sentAll : (moment.charged.station side.peer).tx.entries = []
  onlyLeft : (moment.charged.station side).rx.entries = [head]

variable {side : Side} {head : Entry} {moment : Moment}

section Sparing

/-- Whether an access neither loads nor takes a block of a side. -/
def Spares (side : Side) (moment : Moment) : Prop :=
  ∀ event ∈ moment.events, event.loadedOn? side = none ∧ event.readOn? side = none

theorem loaded_eq_nil {moments : List Moment} (spared : ∀ moment ∈ moments, moment.Spares side) :
    loaded side moments = [] := by
  apply List.filterMap_eq_nil_iff.mpr
  intro event member
  obtain ⟨moment, inMoments, reported⟩ := List.mem_flatMap.mp member
  exact (spared moment inMoments event reported).1

theorem taken_eq_nil {moments : List Moment} (spared : ∀ moment ∈ moments, moment.Spares side) :
    taken side moments = [] := by
  apply List.filterMap_eq_nil_iff.mpr
  intro event member
  obtain ⟨moment, inMoments, reported⟩ := List.mem_flatMap.mp member
  exact (spared moment inMoments event reported).2

theorem taken_cons_of_spares (spares : moment.Spares side) (moments : List Moment) :
    taken side (moment :: moments) = taken side moments := by
  have none := taken_eq_nil (List.forall_mem_singleton.mpr spares)
  rw [← List.singleton_append, taken_append, none, List.nil_append]

theorem spared_of_quiet (side : Side) (event : Event) (quiet : event.IsQuiet) :
    event.loadedOn? side = none ∧ event.readOn? side = none :=
  ⟨quiet.loadedOn? side, quiet.readOn? side⟩

theorem obeys {law : Link → List Event → Link → Prop} (obeyed : Link.ConductBy side law)
    (own : moment.side = side) : law moment.before moment.events moment.after := by
  obtain ⟨side, access, before⟩ := moment
  obtain rfl := own
  cases access with
  | read address =>
    exact Step.within_map obeyed.toChains Answer.ofWord (obeyed.readRegister address) before
  | write address word =>
    exact Step.within_answer obeyed.toChains (obeyed.writeRegister address word)
      (fun _ => Answer.done) before

theorem spares_of_byPeer (byPeer : moment.side = side.peer) : moment.Spares side := by
  apply obeys (Link.conductBy_of_quiet _ (spared_of_quiet side) side.peer _ _) byPeer
  · intro block
    simp [Event.loadedOn?, Event.readOn?]
  · intro block
    simp [Event.loadedOn?, Event.readOn?]

theorem after_of_status (own : moment.side = side)
    (access : moment.access = .read Register.status.address) : moment.after = moment.charged := by
  obtain ⟨side, access, before⟩ := moment
  obtain rfl := own
  obtain rfl := access
  rw [after, outcome, WindowAccess.on, Link.perform, Link.readRegister_status]
  rfl

theorem spares_of_status (own : moment.side = side)
    (access : moment.access = .read Register.status.address) : moment.Spares side := by
  obtain ⟨side, access, before⟩ := moment
  obtain rfl := own
  obtain rfl := access
  have framing := Link.framing_of_quiet _ (spared_of_quiet side)
  have ticking := (framing.framingBy side).toTicking
  rw [Spares, events, outcome, WindowAccess.on, Link.perform, Link.readRegister_status]
  exact Step.within_map ticking.toChains Answer.ofWord
    (Step.within_map ticking.toChains Except.ok (ticking.readStatus side)) before

end Sparing

section Sending

variable {holds : Lane → Prop} (lasting : Lane.Lasting holds) (own : moment.side = side)
include lasting own

theorem after_of_ends (ends : moment.EndsMessage)
    (held : holds (moment.charged.lane side).finished) : holds (moment.after.lane side) := by
  obtain ⟨side, access, before⟩ := moment
  obtain rfl := own
  obtain ⟨word, rfl, isSet⟩ := ends
  rw [after, outcome, WindowAccess.on, Link.perform, Link.writeRegister_control]
  apply Link.lasting_writeControl lasting
  · intro _
    exact held
  · intro isClear
    rw [isSet] at isClear
    cases isClear

theorem after_of_runsOn (runsOn : ¬ moment.EndsMessage) (held : holds (moment.before.lane side)) :
    holds (moment.after.lane side) := by
  obtain ⟨side, access, before⟩ := moment
  obtain rfl := own
  have charged := (lasting.ticking side).charge before held
  cases access with
  | read address => exact (lasting.readingBy side).readRegister address before held
  | write address word =>
    change holds (((Link.writeRegister side address word).run before).state.lane side)
    unfold Link.writeRegister
    split
    next found =>
      obtain rfl := Register.eq_address_of_found found
      apply Link.lasting_writeControl lasting
      · intro isSet
        exact absurd ⟨word, rfl, isSet⟩ runsOn
      · intro _
        exact charged
    next => exact (lasting.loadingBy side).writeData _ word before held
    all_goals exact charged

end Sending

/-- The peer leaves the oldest block for a side to read, or else ends its message. -/
theorem offers_or_endsOver (byPeer : moment.side = side.peer)
    (offers : (moment.before.lane side.peer).Offers head) :
    (moment.after.lane side.peer).Offers head ∨
      moment.EndsOver side head ∧ (moment.after.lane side.peer).HoldsBack head := by
  have lasting := Lane.lasting_offers head
  by_cases ends : moment.EndsMessage
  · have charged := Link.offers_charge offers
    rcases charged.finished with still | ⟨isOpen, isLoaded, sentAll, onlyLeft, held⟩
    · exact .inl (after_of_ends lasting byPeer ends still)
    · refine .inr ⟨⟨byPeer, ends, isOpen, isLoaded, sentAll, ?_⟩, ?_⟩
      · rw [Link.lane_peer] at onlyLeft
        exact onlyLeft
      · exact after_of_ends (Lane.lasting_holdsBack head) byPeer ends held
  · exact .inl (after_of_runsOn lasting byPeer ends offers)

/-- What is held back is not the peer's to release. -/
theorem holdsBack_after (byPeer : moment.side = side.peer)
    (held : (moment.before.lane side.peer).HoldsBack head) :
    (moment.after.lane side.peer).HoldsBack head := by
  have lasting := Lane.lasting_holdsBack head
  by_cases ends : moment.EndsMessage
  · exact after_of_ends lasting byPeer ends (Link.holdsBack_charge held).finished
  · exact after_of_runsOn lasting byPeer ends held

section Reading

/-- Whether an access is the one that a side reads a word of its window with. -/
def Reads (side : Side) (position : Fin 4) (moment : Moment) : Prop :=
  moment.side = side ∧ moment.access = .read (Register.readData position).address

variable {position : Fin 4}

theorem Reads.position_eq {other : Fin 4} (reads : moment.Reads side position)
    (otherReads : moment.Reads side other) : position = other := by
  have address := WindowAccess.read.inj (reads.2.symm.trans otherReads.2)
  exact Register.readData.inj (Register.eq_of_address_eq address)

theorem Reads.outcome_eq (reads : moment.Reads side position) :
    moment.outcome = (Answer.word <$> Link.readData side position).run moment.before := by
  obtain ⟨side, access, before⟩ := moment
  obtain ⟨rfl, rfl⟩ := reads
  rw [outcome, WindowAccess.on, Link.perform, Link.readRegister_readData]
  simp only [Step.run_map, List.append_nil]
  rfl

theorem Reads.spares (reads : moment.Reads side position) (early : position ≠ 3) :
    moment.Spares side := by
  have framing := Link.framing_of_quiet _ (spared_of_quiet side)
  have ticking := (framing.framingBy side).toTicking
  rw [Spares, events, reads.outcome_eq]
  exact Step.within_map ticking.toChains Answer.word (ticking.readEarly side early) moment.before

theorem Reads.of_offers (reads : moment.Reads side position) (early : position ≠ 3)
    (offers : (moment.before.lane side.peer).Offers head) :
    moment.answer = .word (head.block.word position) ∧
      (moment.after.lane side.peer).Offers head := by
  have outcome := Link.run_readData_of_ok early (Link.peek_of_offers offers)
  rw [answer, after, reads.outcome_eq, Step.run_map, outcome]
  exact ⟨rfl, Link.offers_charge offers⟩

theorem Reads.of_holdsBack (reads : moment.Reads side position)
    (held : (moment.before.lane side.peer).HoldsBack head) :
    moment.answer = .word 0 ∧ (moment.after.lane side.peer).HoldsBack head ∧
      moment.Spares side := by
  have charged := Link.holdsBack_charge held
  have outcome : (Link.readData side position).run moment.before = _ :=
    Link.run_readData_of_error (Link.peek_of_holdsBack charged)
  rw [answer, after, Spares, events, reads.outcome_eq, Step.run_map, outcome]
  refine ⟨rfl, charged, ?_⟩
  intro event member
  apply spared_of_quiet
  rw [List.append_nil, List.mem_append, List.mem_singleton] at member
  rcases member with delivery | rfl
  · exact (Link.delivery_law.charge moment.before event delivery).isQuiet
  · trivial

/-- The last read of a window takes the oldest block. -/
theorem Reads.takes (reads : moment.Reads side 3)
    (offers : (moment.before.lane side.peer).Offers head) :
    moment.answer = .word head.block.word3 ∧ taken side [moment] = [head.block] ∧
      moment.after.lane side.peer =
        (moment.charged.lane side.peer).dropOldest.flow moment.charged.time := by
  have shown : (moment.charged.station side).peek = .ok head.block :=
    Link.peek_of_offers (Link.offers_charge offers)
  have outcome := Link.run_readLast_of_ok (Link.peek_of_offers offers)
  have amid : Event.Amid [.read side head.block] moment.events := by
    rw [events, reads.outcome_eq, Step.run_map, outcome]
    dsimp only
    rw [List.append_nil]
    exact (Link.amid_read_of_ok shown).behind (Link.delivery_law.charge moment.before)
  refine ⟨?_, ?_, ?_⟩
  · rw [answer, reads.outcome_eq, Step.run_map, outcome]
    rfl
  · rw [taken, List.flatMap_singleton, amid.filterMap_eq fun _ quiet => quiet.readOn? side]
    simp [Event.readOn?]
  · rw [after, reads.outcome_eq, Step.run_map, outcome]
    exact Link.lane_read_peer_of_ok shown

/-- What a reader has been shown since its STATUS read promised it the oldest block. -/
inductive Watched (side : Side) (head : Entry) : List Moment → Link → Prop where
  | offered {moments : List Moment} {link : Link} :
      (link.lane side.peer).Offers head →
      (∀ moment ∈ moments, ∀ position, moment.Reads side position →
        moment.answer = .word (head.block.word position)) →
      Watched side head moments link
  | ended {before after : List Moment} {ending : Moment} {link : Link} :
      ending.EndsOver side head → (link.lane side.peer).HoldsBack head →
      (∀ moment ∈ after, moment.side = side → moment.answer = .word 0) →
      Watched side head (before ++ ending :: after) link

theorem Watched.next {earlier : List Moment} (watched : Watched side head earlier moment.before)
    (goesOn : moment.side = side.peer ∨ ∃ position, position ≠ 3 ∧ moment.Reads side position) :
    Watched side head (earlier ++ [moment]) moment.after := by
  cases watched with
  | offered offers shown =>
    rcases goesOn with byPeer | ⟨position, early, reads⟩
    · rcases offers_or_endsOver byPeer offers with still | ⟨ends, held⟩
      · refine .offered still (List.forall_mem_append.mpr ⟨shown, ?_⟩)
        rw [List.forall_mem_singleton]
        intro position reads
        exact absurd (reads.1.symm.trans byPeer) (Side.ne_peer side)
      · exact .ended ends held (by simp)
    · obtain ⟨answered, still⟩ := reads.of_offers early offers
      refine .offered still (List.forall_mem_append.mpr ⟨shown, ?_⟩)
      rw [List.forall_mem_singleton]
      intro other otherReads
      obtain rfl := reads.position_eq otherReads
      exact answered
  | @ended before after ending link ends held blank =>
    rw [List.append_assoc, List.cons_append]
    rcases goesOn with byPeer | ⟨position, -, reads⟩
    · refine .ended ends (holdsBack_after byPeer held) (List.forall_mem_append.mpr ⟨blank, ?_⟩)
      rw [List.forall_mem_singleton]
      intro own
      exact absurd (own.symm.trans byPeer) (Side.ne_peer side)
    · obtain ⟨answered, still, -⟩ := reads.of_holdsBack held
      refine .ended ends still (List.forall_mem_append.mpr ⟨blank, ?_⟩)
      rw [List.forall_mem_singleton]
      intro _
      exact answered

/-- The last read of a window takes what the reads before it have shown, or nothing. -/
theorem Watched.last {front : List Moment} (watched : Watched side head front moment.before)
    (spared : ∀ other ∈ front, other.Spares side) (reads : moment.Reads side 3) :
    ((∀ other ∈ front ++ [moment], ∀ position, other.Reads side position →
          other.answer = .word (head.block.word position)) ∧
        taken side (front ++ [moment]) = [head.block] ∧
        moment.after.lane side.peer =
          (moment.charged.lane side.peer).dropOldest.flow moment.charged.time) ∨
      ∃ before ending after, front = before ++ ending :: after ∧ ending.EndsOver side head ∧
        taken side (front ++ [moment]) = [] ∧ (moment.after.lane side.peer).HoldsBack head ∧
        ∀ other ∈ after ++ [moment], other.side = side → other.answer = .word 0 := by
  rw [taken_append, taken_eq_nil spared, List.nil_append]
  cases watched with
  | offered offers shown =>
    obtain ⟨answered, taken, dropped⟩ := reads.takes offers
    refine .inl ⟨List.forall_mem_append.mpr ⟨shown, ?_⟩, taken, dropped⟩
    rw [List.forall_mem_singleton]
    intro position otherReads
    obtain rfl := reads.position_eq otherReads
    exact answered
  | @ended before after ending link ends held blank =>
    obtain ⟨answered, stillHeld, spares⟩ := reads.of_holdsBack held
    refine .inr ⟨before, ending, after, rfl, ends, ?_, stillHeld, ?_⟩
    · exact taken_eq_nil (List.forall_mem_singleton.mpr spares)
    · refine List.forall_mem_append.mpr ⟨blank, ?_⟩
      rw [List.forall_mem_singleton]
      intro _
      exact answered

end Reading

section Writing

/-- Whether an access is the one that a side writes a word of its window with. -/
def Writes (side : Side) (position : Fin 4) (word : UInt32) (moment : Moment) : Prop :=
  moment.side = side ∧ moment.access = .write (Register.writeData position).address word

variable {position : Fin 4} {word : UInt32} {block : Block}

theorem Writes.position_eq {other : Fin 4} {otherWord : UInt32}
    (writes : moment.Writes side position word)
    (otherWrites : moment.Writes side other otherWord) : position = other := by
  have address := (WindowAccess.write.inj (writes.2.symm.trans otherWrites.2)).1
  exact Register.writeData.inj (Register.eq_of_address_eq address)

theorem Writes.after_eq (writes : moment.Writes side position word) :
    moment.after = ((Link.writeData side position word).run moment.before).state := by
  obtain ⟨side, access, before⟩ := moment
  obtain ⟨rfl, rfl⟩ := writes
  rw [after, outcome, WindowAccess.on, Link.perform, Link.writeRegister_writeData]
  rfl

theorem Writes.events_eq (writes : moment.Writes side position word) :
    moment.events = ((Link.writeData side position word).run moment.before).events := by
  obtain ⟨side, access, before⟩ := moment
  obtain ⟨rfl, rfl⟩ := writes
  rw [events, outcome, WindowAccess.on, Link.perform, Link.writeRegister_writeData]
  exact List.append_nil _

theorem Writes.spares (writes : moment.Writes side position word) (early : position ≠ 3) :
    moment.Spares side := by
  rw [Spares, writes.events_eq, Link.run_writeData_of_early early]
  intro event member
  exact spared_of_quiet side event (Link.delivery_law.charge moment.before event member).isQuiet

/-- What a writer has prepared since its STATUS read promised it that a block is taken. -/
structure Prepared (side : Side) (block : Block) (moments : List Moment) (link : Link) :
    Prop where
  ready : (link.lane side).IsReady
  staged : ∀ moment ∈ moments, ∀ position, moment.Writes side position (block.word position) →
    (link.staged.get side).word position = block.word position

theorem Prepared.next {earlier : List Moment}
    (prepared : Prepared side block earlier moment.before)
    (goesOn : moment.side = side.peer ∨
      ∃ position, position ≠ 3 ∧ moment.Writes side position (block.word position)) :
    Prepared side block (earlier ++ [moment]) moment.after := by
  rcases goesOn with byPeer | ⟨position, early, writes⟩
  · have ready := obeys (Lane.reserved_isReady.conductBy side.peer) byPeer
    have staged := obeys (Link.staged_law side.peer) byPeer
    rw [Side.peer_peer] at ready staged
    refine ⟨ready prepared.ready, List.forall_mem_append.mpr ⟨?_, ?_⟩⟩
    · rw [staged]
      exact prepared.staged
    · rw [List.forall_mem_singleton]
      intro position writes
      exact absurd (writes.1.symm.trans byPeer) (Side.ne_peer side)
  · have charged := (Link.aside_law.charge moment.before).staged
    rw [writes.after_eq, Link.run_writeData_of_early early]
    refine ⟨Link.ready_law.charge moment.before side prepared.ready, ?_⟩
    dsimp only
    rw [Link.staged_withStaged, charged]
    intro other member otherPosition otherWrites
    rw [Block.word_setWord]
    by_cases same : otherPosition = position
    · rw [if_pos same, same]
    · rw [if_neg same]
      rcases List.mem_append.mp member with inEarlier | isLast
      · exact prepared.staged other inEarlier otherPosition otherWrites
      · obtain rfl := List.mem_singleton.mp isLast
        exact absurd (otherWrites.position_eq writes) same

/-- The last write of a window loads the block whose words were written before it. -/
theorem Prepared.last {front : List Moment} (prepared : Prepared side block front moment.before)
    (writes : moment.Writes side 3 block.word3)
    (written : ∀ position, position ≠ 3 →
      ∃ other ∈ front, other.Writes side position (block.word position)) :
    loaded side [moment] = [block] ∧
      ∃ due, moment.after.lane side =
        ((moment.charged.lane side).queued block due).flow moment.charged.time := by
  have ready : (moment.charged.station side).IsReady :=
    Link.ready_law.charge moment.before side prepared.ready
  have staged : (moment.charged.staged.get side).setWord block.word3 3 = block := by
    rw [charged, (Link.aside_law.charge moment.before).staged]
    apply Block.ext_word
    intro position
    rw [Block.word_setWord]
    by_cases isLast : position = 3
    · rw [if_pos isLast, isLast]
      rfl
    · rw [if_neg isLast]
      obtain ⟨other, member, otherWrites⟩ := written position isLast
      exact prepared.staged other member position otherWrites
  have readyStaged : ((moment.charged.withStaged side block).station side).IsReady := ready
  have outcome : (Link.writeData side 3 block.word3).run moment.before =
      let loaded := (Link.load side block).run (moment.charged.withStaged side block)
      ⟨(), loaded.state, (Link.charge.run moment.before).events ++ loaded.events⟩ := by
    have written : (Link.writeData side 3 block.word3).run moment.before = _ :=
      Link.run_writeLast_of_ready ready
    rw [written, ← staged]
    rfl
  have amid : Event.Amid [.loaded side block] moment.events := by
    rw [writes.events_eq, outcome]
    have queued := Link.amid_load_of_ready block readyStaged
    exact queued.behind (Link.delivery_law.charge moment.before)
  constructor
  · rw [loaded, List.flatMap_singleton, amid.filterMap_eq fun _ quiet => quiet.loadedOn? side]
    simp [Event.loadedOn?]
  · rw [writes.after_eq, outcome]
    exact ⟨_, Link.lane_load_self_of_ready block readyStaged⟩

end Writing

end Moment

namespace Driver

/-- What a read of a block does once STATUS has shown that there is one. -/
def readWindow : Program (Except Refusal Block) :=
  .read (Register.readData 0).address fun word0 =>
  .read (Register.readData 1).address fun word1 =>
  .read (Register.readData 2).address fun word2 =>
  .read (Register.readData 3).address fun word3 =>
  .answer (.ok ⟨word0, word1, word2, word3⟩)

theorem read_eq :
    read = .read Register.status.address fun word =>
      match (Status.ofWord word).refusal? with
      | some refusal => .answer (.error refusal)
      | none => readWindow := by
  have decided : read = .read Register.status.address fun word =>
      if (!(Status.ofWord word).rxValid) = true then .answer (.error .unavailable)
      else if ((Status.ofWord word).rxLast && (Status.ofWord word).rxLevel == 1) = true then
        .answer (.error .blocked)
      else readWindow :=
    rfl
  rw [decided]
  congr 1
  funext word
  generalize Status.ofWord word = status
  unfold Status.refusal?
  by_cases isEmpty : (!status.rxValid) = true
  · rw [if_pos isEmpty, if_pos isEmpty]
  · rw [if_neg isEmpty, if_neg isEmpty]
    by_cases isHeld : (status.rxLast && status.rxLevel == 1) = true
    · rw [if_pos isHeld, if_pos isHeld]
    · rw [if_neg isHeld, if_neg isHeld]

/-- What a load of a block does once STATUS has shown that it is taken. -/
def writeWindow (block : Block) : Program (Except Refusal Unit) :=
  .write (Register.writeData 0).address block.word0 <|
  .write (Register.writeData 1).address block.word1 <|
  .write (Register.writeData 2).address block.word2 <|
  .write (Register.writeData 3).address block.word3 <|
  .answer (.ok ())

theorem load_eq (block : Block) :
    load block = .read Register.status.address fun word =>
      if (Status.ofWord word).txInputReady then writeWindow block
      else .answer (.error .unavailable) :=
  rfl

section Bursts

variable {side : Side} {gaps : List (List WindowAccess)} {link : Link}

theorem run_loadBurst_of_unready (block : Block)
    (unready : ¬ ((Link.charge.run link).state.station side).IsReady) :
    ((load block).burst side gaps).run link =
      ⟨.ok (.error .unavailable), (Link.charge.run link).state,
        [⟨side, .read Register.status.address, link⟩]⟩ := by
  rw [← Station.txInputReady_iff] at unready
  rw [load_eq, Program.run_burst_status]
  dsimp only
  rw [Station.ofWord_status, if_neg unready]
  rfl

theorem run_loadBurst_of_ready (block : Block)
    (ready : ((Link.charge.run link).state.station side).IsReady) :
    ((load block).burst side gaps).run link =
      let rest := ((writeWindow block).amid side gaps).run (Link.charge.run link).state
      ⟨rest.value, rest.state, ⟨side, .read Register.status.address, link⟩ :: rest.events⟩ := by
  rw [← Station.txInputReady_iff] at ready
  rw [load_eq, Program.run_burst_status]
  dsimp only
  rw [Station.ofWord_status, if_pos ready]

theorem run_readBurst_of_error {refusal : Refusal}
    (framed : ((Link.charge.run link).state.station side).Framed)
    (shown : ((Link.charge.run link).state.station side).peek = .error refusal) :
    (read.burst side gaps).run link =
      ⟨.ok (.error refusal), (Link.charge.run link).state,
        [⟨side, .read Register.status.address, link⟩]⟩ := by
  have decided := Station.refusal?_status framed
  rw [shown] at decided
  rw [read_eq, Program.run_burst_status]
  dsimp only
  rw [Station.ofWord_status, decided]
  rfl

theorem run_readBurst_of_ok {block : Block}
    (framed : ((Link.charge.run link).state.station side).Framed)
    (shown : ((Link.charge.run link).state.station side).peek = .ok block) :
    (read.burst side gaps).run link =
      let rest := (readWindow.amid side gaps).run (Link.charge.run link).state
      ⟨rest.value, rest.state, ⟨side, .read Register.status.address, link⟩ :: rest.events⟩ := by
  have decided := Station.refusal?_status framed
  rw [shown] at decided
  rw [read_eq, Program.run_burst_status]
  dsimp only
  rw [Station.ofWord_status, decided]

end Bursts

end Driver

namespace Program.Course

variable {α : Type} {side : Side} {link last : Link} {moments : List Moment}
  {value : Except Fault α}

theorem of_read {position : Fin 4} {next : UInt32 → Program α}
    (course : Course side (.read (Register.readData position).address next) link moments value
      last) :
    ∃ gap moment word later, moments = gap ++ moment :: later ∧
      Moment.Gap side.peer link gap moment.before ∧ moment.Reads side position ∧
      moment.answer = .word word ∧ Course side (next word) moment.after later value last := by
  cases course with
  | @read _ word _ _ _ gap later moment _ isGap own access answered rest =>
    exact ⟨gap, moment, word, later, rfl, isGap, ⟨own, access⟩, answered, rest⟩
  | fault isGap own access faulted =>
    rw [Moment.answer, Moment.Reads.outcome_eq ⟨own, access⟩] at faulted
    cases faulted

/-- The four reads of a window, with the peer in between. -/
theorem of_readWindow {value : Except Fault (Except Refusal Block)} {head : Entry}
    (course : Course side Driver.readWindow link moments value last)
    (offers : (link.lane side.peer).Offers head) :
    ∃ words front final, value = .ok (.ok words) ∧ moments = front ++ [final] ∧
      final.Reads side 3 ∧
      (Moment.ownOf side moments).map Moment.access =
        [0, 1, 2, 3].map (fun position => .read (Register.readData position).address) ∧
      (Moment.ownOf side moments).map Moment.answer = words.toList.map .word ∧
      (words = head.block ∧ Moment.taken side moments = [head.block] ∧
          final.after.lane side.peer =
            (final.charged.lane side.peer).dropOldest.flow final.charged.time ∨
        ∃ before ending after, front = before ++ ending :: after ∧ ending.EndsOver side head ∧
          Moment.taken side moments = [] ∧ (last.lane side.peer).HoldsBack head ∧
          ∀ moment ∈ after ++ [final], moment.side = side → moment.answer = .word 0) := by
  obtain ⟨gap0, read0, word0, _, rfl, isGap0, reads0, answer0, course⟩ := course.of_read
  obtain ⟨gap1, read1, word1, _, rfl, isGap1, reads1, answer1, course⟩ := course.of_read
  obtain ⟨gap2, read2, word2, _, rfl, isGap2, reads2, answer2, course⟩ := course.of_read
  obtain ⟨gap3, final, word3, _, rfl, isGap3, reads3, answer3, course⟩ := course.of_read
  cases course
  obtain ⟨front, moments, own, sequence⟩ :=
    Moment.exists_front isGap0 reads0.1 isGap1 reads1.1 isGap2 reads2.1 isGap3
  have early : ∀ moment ∈ [read0, read1, read2],
      ∃ position, position ≠ 3 ∧ moment.Reads side position := by
    simp only [List.forall_mem_cons, List.not_mem_nil, false_implies, implies_true, and_true]
    exact ⟨⟨0, by decide, reads0⟩, ⟨1, by decide, reads1⟩, ⟨2, by decide, reads2⟩⟩
  have goesOn := Moment.byPeer_or_of_ownOf_eq own early
  have spared : ∀ moment ∈ front, moment.Spares side := by
    intro moment member
    rcases goesOn moment member with byPeer | ⟨position, early, reads⟩
    · exact Moment.spares_of_byPeer byPeer
    · exact reads.spares early
  have watched : Moment.Watched side head ([] ++ front) final.before := by
    apply sequence.invariant (Moment.Watched side head)
    · intro earlier moment member watched
      exact watched.next (goesOn moment member)
    · exact .offered offers (by simp)
  have all : Moment.ownOf side (front ++ [final]) = [read0, read1, read2, final] := by
    rw [Moment.ownOf_append, own, Moment.ownOf_cons reads3.1]
    rfl
  refine ⟨⟨word0, word1, word2, word3⟩, front, final, rfl, moments, reads3, ?_, ?_, ?_⟩
  · rw [moments, all]
    simp only [List.map_cons, List.map_nil, reads0.2, reads1.2, reads2.2, reads3.2]
  · rw [moments, all]
    simp only [List.map_cons, List.map_nil, answer0, answer1, answer2, answer3, Block.toList]
  · rw [moments]
    rcases watched.last spared reads3 with ⟨shown, taken, dropped⟩ | cutOff
    · refine .inl ⟨?_, taken, dropped⟩
      have listed := Moment.mem_of_ownOf_eq all
      have shown0 := shown read0 (listed _ (by simp)) 0 reads0
      have shown1 := shown read1 (listed _ (by simp)) 1 reads1
      have shown2 := shown read2 (listed _ (by simp)) 2 reads2
      have shown3 := shown final (listed _ (by simp)) 3 reads3
      exact Block.ext (Answer.word.inj (answer0.symm.trans shown0))
        (Answer.word.inj (answer1.symm.trans shown1)) (Answer.word.inj (answer2.symm.trans shown2))
        (Answer.word.inj (answer3.symm.trans shown3))
    · exact .inr cutOff

theorem of_write {position : Fin 4} {word : UInt32} {next : Program α}
    (course : Course side (.write (Register.writeData position).address word next) link moments
      value last) :
    ∃ gap moment later, moments = gap ++ moment :: later ∧
      Moment.Gap side.peer link gap moment.before ∧ moment.Writes side position word ∧
      Course side next moment.after later value last := by
  cases course with
  | @write _ _ _ _ _ gap later moment _ isGap own access rest =>
    exact ⟨gap, moment, later, rfl, isGap, ⟨own, access⟩, rest⟩

/-- The four writes of a window, with the peer in between. -/
theorem of_writeWindow {block : Block} {value : Except Fault (Except Refusal Unit)}
    (course : Course side (Driver.writeWindow block) link moments value last)
    (ready : (link.lane side).IsReady) :
    value = .ok (.ok ()) ∧ ∃ front final, moments = front ++ [final] ∧
      final.Writes side 3 block.word3 ∧
      (∀ moment ∈ front, moment.Spares side) ∧ Moment.loaded side [final] = [block] ∧
      ∃ due, final.after.lane side =
        ((final.charged.lane side).queued block due).flow final.charged.time := by
  obtain ⟨gap0, write0, _, rfl, isGap0, writes0, course⟩ := course.of_write
  obtain ⟨gap1, write1, _, rfl, isGap1, writes1, course⟩ := course.of_write
  obtain ⟨gap2, write2, _, rfl, isGap2, writes2, course⟩ := course.of_write
  obtain ⟨gap3, final, _, rfl, isGap3, writes3, course⟩ := course.of_write
  cases course
  obtain ⟨front, moments, own, sequence⟩ :=
    Moment.exists_front isGap0 writes0.1 isGap1 writes1.1 isGap2 writes2.1 isGap3
  have early : ∀ moment ∈ [write0, write1, write2],
      ∃ position, position ≠ 3 ∧ moment.Writes side position (block.word position) := by
    simp only [List.forall_mem_cons, List.not_mem_nil, false_implies, implies_true, and_true]
    exact ⟨⟨0, by decide, writes0⟩, ⟨1, by decide, writes1⟩, ⟨2, by decide, writes2⟩⟩
  have goesOn := Moment.byPeer_or_of_ownOf_eq own early
  have spared : ∀ moment ∈ front, moment.Spares side := by
    intro moment member
    rcases goesOn moment member with byPeer | ⟨position, isEarly, writes⟩
    · exact Moment.spares_of_byPeer byPeer
    · exact writes.spares isEarly
  have prepared : Moment.Prepared side block ([] ++ front) final.before := by
    apply sequence.invariant (Moment.Prepared side block)
    · intro earlier moment member prepared
      exact prepared.next (goesOn moment member)
    · exact ⟨ready, by simp⟩
  have written : ∀ position : Fin 4, position ≠ 3 →
      ∃ moment ∈ front, moment.Writes side position (block.word position) := by
    have listed := Moment.mem_of_ownOf_eq own
    intro position isEarly
    match position with
    | 0 => exact ⟨write0, listed _ (by simp), writes0⟩
    | 1 => exact ⟨write1, listed _ (by simp), writes1⟩
    | 2 => exact ⟨write2, listed _ (by simp), writes2⟩
    | 3 => exact absurd rfl isEarly
  obtain ⟨loaded, queued⟩ := prepared.last writes3 written
  exact ⟨rfl, front, final, moments, writes3, spared, loaded, queued⟩

end Program.Course

namespace History

/-- What the peer does between the accesses of a driver call cannot disturb a load, and a read
in one way only. A load either is refused and does nothing, or its last write loads the block.
A read either is refused and does nothing, or its last access takes the block that was the
oldest at its STATUS read, or the peer ended its message while that block was all that was
left. Then nothing is taken, the block is held back, and zero is read from there on. -/
theorem bursts_under_interference (history : History) (side : Side)
    (gaps : List (List WindowAccess)) :
    (∀ block,
      let burst := ((Driver.load block).burst side gaps).run history.link
      burst.value = .ok (.error .unavailable) ∧
          burst.state = (Link.charge.run history.link).state ∧
          Moment.loaded side burst.events = [] ∨
        burst.value = .ok (.ok ()) ∧ ∃ front final, burst.events = front ++ [final] ∧
          final.Writes side 3 block.word3 ∧
          Moment.loaded side front = [] ∧ Moment.loaded side [final] = [block] ∧
          ∃ due, final.after.lane side =
            ((final.charged.lane side).queued block due).flow final.charged.time) ∧
    let burst := (Driver.read.burst side gaps).run history.link
    (∃ refusal, burst.value = .ok (.error refusal) ∧
        (refusal = .unavailable ∨ refusal = .blocked) ∧
        burst.state = (Link.charge.run history.link).state ∧
        Moment.taken side burst.events = []) ∨
      ∃ words head rest status front final, burst.value = .ok (.ok words) ∧
        burst.events = status :: (front ++ [final]) ∧
        status.side = side ∧ status.access = .read Register.status.address ∧
        (status.after.station side).rx.entries = head :: rest ∧
        final.Reads side 3 ∧
        (Moment.ownOf side (front ++ [final])).map Moment.access =
          [0, 1, 2, 3].map (fun position => .read (Register.readData position).address) ∧
        (Moment.ownOf side (front ++ [final])).map Moment.answer = words.toList.map .word ∧
        (words = head.block ∧ Moment.taken side burst.events = [head.block] ∧
            final.after.lane side.peer =
              (final.charged.lane side.peer).dropOldest.flow final.charged.time ∨
          ∃ before ending after, front = before ++ ending :: after ∧
            ending.EndsOver side head ∧ Moment.taken side burst.events = [] ∧
            (burst.state.station side).rx.entries = [{ head with final := true }] ∧
            (burst.state.station side).boundaryPending = true ∧
            ∀ moment ∈ after ++ [final], moment.side = side → moment.answer = .word 0) := by
  let status : Moment := ⟨side, .read Register.status.address, history.link⟩
  have spares : status.Spares side := Moment.spares_of_status rfl rfl
  constructor
  · intro block
    by_cases ready : ((Link.charge.run history.link).state.station side).IsReady
    · right
      have course := Program.course_amid side (Driver.writeWindow block) gaps
        (Link.charge.run history.link).state
      obtain ⟨value, front, final, moments, writes, spared, loaded, queued⟩ :=
        course.of_writeWindow ready
      have none := Moment.loaded_eq_nil (List.forall_mem_cons.mpr ⟨spares, spared⟩)
      rw [Driver.run_loadBurst_of_ready block ready]
      exact ⟨value, status :: front, final, congrArg (status :: ·) moments, writes, none, loaded,
        queued⟩
    · left
      rw [Driver.run_loadBurst_of_unready block ready]
      exact ⟨rfl, rfl, Moment.loaded_eq_nil (List.forall_mem_singleton.mpr spares)⟩
  · have framed := history.framed_charge side
    cases shown : ((Link.charge.run history.link).state.station side).peek with
    | error refusal =>
      left
      have none := Moment.taken_eq_nil (List.forall_mem_singleton.mpr spares)
      rw [Driver.run_readBurst_of_error framed shown]
      exact ⟨refusal, rfl, (Station.refused_of_peek framed shown).imp_right And.left, rfl, none⟩
    | ok block =>
      right
      obtain ⟨head, rest, oldest, offers⟩ := Link.offers_of_peek framed shown
      have course := Program.course_amid side Driver.readWindow gaps
        (Link.charge.run history.link).state
      obtain ⟨words, front, final, value, moments, reads, accesses, answers, verdict⟩ :=
        course.of_readWindow offers
      rw [moments] at accesses answers
      have atStatus : (status.after.station side).rx.entries = head :: rest := by
        rw [Moment.after_of_status rfl rfl]
        exact oldest
      rw [Driver.run_readBurst_of_ok framed shown]
      refine ⟨words, head, rest, status, front, final, value, congrArg (status :: ·) moments, rfl,
        rfl, atStatus, reads, accesses, answers, ?_⟩
      dsimp only
      rw [Moment.taken_cons_of_spares spares]
      rcases verdict with taken | ⟨before, ending, after, split, ends, nothing, held, blank⟩
      · exact .inl taken
      · rw [Link.lane_peer] at held
        exact .inr ⟨before, ending, after, split, ends, nothing, held.arrived, held.isPending,
          blank⟩

/-- The peer ends its message when the first word of its last block has been read. -/
example :
    let link := ((Link.performAll
      [.call .direct .left .openMessage, .call .direct .left (.load ⟨1, 2, 3, 4⟩)]).run
        (.idle {} 0)).state
    let ending : WindowAccess := .write Register.control.address (ControlWord.txEnd.put 0 1)
    let burst := (Driver.read.burst .right [[], [ending]]).run link
    (Moment.ownOf .right burst.events).tail.map Moment.answer =
      [.word 1, .word 0, .word 0, .word 0] := by
  decide +kernel

end History

end BlockLink
