import BlockLink.Proofs.Equations
import BlockLink.Proofs.Word

/-!
What the register driver does to a link, call by call.

A driver call is a burst of accesses, each of which lets time pass. The decisions
of the driver rest on one STATUS word; what they rest on outlasts the deliveries
of the accesses behind it, so that a call has the effect of a few charges and the
call to the model.
-/

namespace BlockLink

theorem Block.ext_word {first second : Block}
    (same : ∀ position, first.word position = second.word position) : first = second :=
  Block.ext (same 0) (same 1) (same 2) (same 3)

/-- Why the driver does not read a block when it sees a status. -/
def Status.refusal? (status : Status) : Option Refusal :=
  if !status.rxValid then some .unavailable
  else if status.rxLast && status.rxLevel == 1 then some .blocked
  else none

namespace Station

/-- Whether the instance takes a block for transmission. -/
def IsReady (station : Station) : Prop := station.messageOpen = true ∧ station.tx.HasRoom

theorem txInputReady_iff (station : Station) :
    station.status.txInputReady = true ↔ station.IsReady := by
  have bound := station.tx.size_le
  have room : station.tx.size ≠ Fifo.depth ↔ station.tx.HasRoom := by
    rw [Fifo.HasRoom, Fifo.size]
    omega
  simp [status, IsReady, ← room]

theorem peek_accept {station : Station} {block : Block} {entry : Entry}
    (able : station.CanAccept) (shown : station.peek = .ok block) :
    (station.accept entry able).peek = .ok block := by
  obtain ⟨oldest, rest, shape, rfl, -⟩ := station.peek_eq_ok_iff.mp shown
  refine (Station.peek_eq_ok_iff _).mpr ⟨oldest, rest ++ [entry], ?_, rfl, ?_⟩
  · simp [accept, shape]
  · rintro ⟨final, -⟩
    exact able.2.2 ⟨oldest, by simp [shape], final⟩

theorem peek_intake {now : Time} {entries : List Entry} {station : Station} {block : Block}
    (shown : station.peek = .ok block) : (intake now entries station).2.peek = .ok block := by
  induction entries generalizing station with
  | nil => exact shown
  | cons entry rest inductionHypothesis =>
    by_cases able : entry.readyAt ≤ now ∧ station.CanAccept
    · simp only [intake, able, dif_pos, and_self]
      exact inductionHypothesis (peek_accept able.2 shown)
    · simp only [intake, able, dif_neg, not_false_eq_true]
      exact shown

/-- Only the newest received block may end a message, and it does if a boundary is pending. -/
structure Framed (station : Station) : Prop where
  single : ∀ entry ∈ station.rx.entries.dropLast, entry.final = false
  pending : station.boundaryPending = true →
    ∀ entry ∈ station.rx.entries.getLast?, entry.final = true

/-- The status of a framed instance tells whether a block can be read, and why not. -/
theorem refusal?_status {station : Station} (framed : station.Framed) :
    station.status.refusal? =
      match station.peek with
      | .ok _ => none
      | .error refusal => some refusal := by
  cases shape : station.rx.entries with
  | nil => simp [Status.refusal?, status, peek, Fifo.oldest?, Fifo.size, shape]
  | cons entry rest =>
    cases rest with
    | nil =>
      have single := framed.pending
      simp only [shape, List.getLast?_singleton, Option.mem_some_iff, forall_eq'] at single
      cases isPending : station.boundaryPending with
      | false => simp [Status.refusal?, status, peek, Fifo.oldest?, Fifo.size, shape, isPending]
      | true =>
        simp [Status.refusal?, status, peek, Fifo.oldest?, Fifo.size, shape, isPending,
          single isPending]
    | cons next rest =>
      have plain : entry.final = false := framed.single entry (by simp [shape])
      simp [Status.refusal?, status, peek, Fifo.oldest?, Fifo.size, shape, plain]

/-- A read is refused if nothing has arrived, or if all that is left is a final block whose
boundary is pending. -/
theorem refused_of_peek {station : Station} (framed : station.Framed) {refusal : Refusal}
    (shown : station.peek = .error refusal) :
    refusal = .unavailable ∨
      refusal = .blocked ∧ station.boundaryPending = true ∧ station.rx.entries.length = 1 := by
  unfold peek Fifo.oldest? at shown
  cases shape : station.rx.entries with
  | nil =>
    left
    simpa [shape] using shown.symm
  | cons entry rest =>
    right
    cases held : entry.final && station.boundaryPending with
    | false => simp [shape, held] at shown
    | true =>
      obtain ⟨final, isPending⟩ := Bool.and_eq_true_iff.mp held
      refine ⟨by simpa [shape, held] using shown.symm, isPending, ?_⟩
      cases rest with
      | nil => rfl
      | cons next rest =>
        have plain : entry.final = false := framed.single entry (by simp [shape])
        rw [plain] at final
        cases final

theorem intake_of_pending {now : Time} {entries : List Entry} {station : Station}
    (isPending : station.boundaryPending = true) : intake now entries station = (0, station) := by
  cases entries with
  | nil => rfl
  | cons entry rest =>
    have unable : ¬ (entry.readyAt ≤ now ∧ station.CanAccept) := by
      rintro ⟨-, -, isClear, -⟩
      rw [isPending] at isClear
      cases isClear
    rw [intake, dif_neg unable]

/-- The instance with both watermarks replaced. -/
def withWatermarks (station : Station) (levels : Queue → UInt64) : Station :=
  { station with
    txWatermark := levels .transmit
    rxWatermark := levels .receive }

theorem withWatermarks_self (station : Station) :
    station.withWatermarks station.watermark = station :=
  rfl

theorem withWatermarks_withWatermark (station : Station) (queue : Queue) (level : UInt64) :
    station.withWatermarks (station.withWatermark queue level).watermark =
      station.withWatermark queue level := by
  cases queue <;> rfl

end Station

namespace Link

variable (side : Side)

section Lasting

/-- What holds of an instance is kept while it sends and while it receives. -/
theorem station_law (holds : Station → Prop)
    (sends : ∀ station count, holds station →
      holds { station with tx := station.tx.drop count })
    (receives : ∀ now entries station, holds station →
      holds (Station.intake now entries station).2) :
    Passage fun link _ last => ∀ side, holds (link.station side) → holds (last.station side) where
  rest _ _ := id
  next first second side := second side ∘ first side
  elapse _ _ _ := id
  deliver sender link side held := by
    rw [run_deliver]
    rcases Side.self_or_peer sender side with rfl | rfl
    · simpa using sends _ _ held
    · simpa using receives _ _ _ held

theorem ready_law :
    Passage fun link _ last => ∀ side,
      (link.station side).IsReady → (last.station side).IsReady := by
  refine station_law _ ?_ ?_
  · rintro station count ⟨isOpen, room⟩
    refine ⟨isOpen, ?_⟩
    simp only [Fifo.HasRoom, Fifo.size, Fifo.entries_drop, List.length_drop] at room ⊢
    omega
  · intro now entries station ready
    rw [Station.intake_kept]
    exact ready

theorem readable_law (block : Block) :
    Passage fun link _ last => ∀ side,
      (link.station side).peek = .ok block → (last.station side).peek = .ok block := by
  apply station_law fun station => station.peek = .ok block
  · intro station count shown
    exact shown
  · intro now entries station shown
    exact Station.peek_intake shown

theorem pending_law :
    Passage fun link _ last => ∀ side,
      (link.station side).boundaryPending = true → (last.station side).boundaryPending = true := by
  apply station_law fun station => station.boundaryPending = true
  · intro station count isPending
    exact isPending
  · intro now entries station isPending
    rw [Station.intake_of_pending isPending]
    exact isPending

theorem watermark_law (queue : Queue) (level : UInt64) :
    Passage fun link _ last => ∀ side,
      (link.station side).watermark queue = level →
        (last.station side).watermark queue = level := by
  apply station_law fun station => station.watermark queue = level
  · intro station count same
    exact same
  · intro now entries station same
    rw [Station.intake_kept]
    exact same

end Lasting

theorem run_status : Driver.status.run (bus side) = Except.ok <$> Endpoint.status side := by
  rw [Driver.status, Driver.statusWord, Program.run_bind, Program.run_readWord, read_bus,
    readRegister_status]
  apply funext
  intro link
  change Step.run _ link = Step.run _ link
  have shown := Station.ofWord_status ((charge.run link).state.station side)
  simp [readStatus, Endpoint.status, status, shown]

theorem watch_bus : Driver.watch (bus side) = Endpoint.watch side := by
  rw [Driver.watch, run_status]
  rfl

/-- A number of register accesses without a further effect. -/
def charges : Nat → Step Event Link Unit
  | 0 => Step.skip
  | count + 1 => do
    charge
    charges count

theorem run_charges_succ (count : Nat) (link : Link) :
    (charges (count + 1)).run link =
      let rest := (charges count).run (charge.run link).state
      ⟨(), rest.state, (charge.run link).events ++ rest.events⟩ :=
  rfl

theorem state_charges_succ (count : Nat) (link : Link) :
    ((charges (count + 1)).run link).state =
      ((charges count).run (charge.run link).state).state :=
  rfl

theorem within_charges {law : Link → List Event → Link → Prop} (chains : Chains law)
    (charged : charge.Within law) (count : Nat) : (charges count).Within law := by
  induction count with
  | zero => exact Step.within_skip chains
  | succ count inductionHypothesis =>
    exact Step.within_bind chains charged fun _ => inductionHypothesis

theorem Passage.charges {law : Link → List Event → Link → Prop} (passage : Passage law)
    (count : Nat) : (charges count).Within law :=
  within_charges passage.toChains passage.charge count

def withStaged (link : Link) (side : Side) (block : Block) : Link :=
  { link with staged := link.staged.set side block }

theorem station_withStaged (link : Link) (block : Block) (other : Side) :
    (link.withStaged side block).station other = link.station other :=
  rfl

theorem withStaged_withStaged (link : Link) (first second : Block) :
    (link.withStaged side first).withStaged side second = link.withStaged side second := by
  cases side <;> rfl

theorem run_stage (link : Link) (position : Fin 4) (word : UInt32) :
    (stage side position word).run link =
      ⟨(), link.withStaged side ((link.staged.get side).setWord word position), []⟩ :=
  rfl

theorem staged_withStaged (link : Link) (block : Block) :
    (link.withStaged side block).staged.get side = block :=
  PerSide.get_set_self ..

/-- Words can be staged after the time has passed as well as before. -/
theorem stage_charge {α : Type} (position : Fin 4) (word : UInt32)
    (next : Step Event Link α) :
    (do
      stage side position word
      charge
      next : Step Event Link α) = (do
      charge
      stage side position word
      next : Step Event Link α) := by
  apply funext
  intro link
  change Step.run _ link = Step.run _ link
  have same : charge.run ((stage side position word).run link).state =
      ⟨(), ((stage side position word).run (charge.run link).state).state,
        (charge.run link).events⟩ :=
    rfl
  rw [Step.run_bind, Step.run_bind, Step.run_bind, Step.run_bind, same]
  simp [stage]

theorem stage_all {α : Type} (block : Block) (next : Step Event Link α) :
    (do
      stage side 0 block.word0
      stage side 1 block.word1
      stage side 2 block.word2
      stage side 3 block.word3
      next : Step Event Link α) = (do
      Step.update fun link => link.withStaged side block
      next : Step Event Link α) := by
  have written : ∀ staged : Block,
      (((staged.setWord block.word0 0).setWord block.word1 1).setWord block.word2 2).setWord
        block.word3 3 = block :=
    fun _ => rfl
  apply funext
  intro link
  change Step.run _ link = Step.run _ link
  simp [run_stage, withStaged_withStaged, staged_withStaged, written]

def writeBlock (block : Block) : Step Event Link Unit := do
  writeData side 0 block.word0
  writeData side 1 block.word1
  writeData side 2 block.word2
  writeData side 3 block.word3

/-- The four writes of a block let time pass, stage the block and commit it. -/
theorem writeBlock_eq (block : Block) :
    writeBlock side block = (do
      charges 4
      Step.update fun link => link.withStaged side block
      commit side : Step Event Link Unit) := by
  have early : ∀ {position : Fin 4} (word : UInt32), position ≠ 3 →
      writeData side position word = (do
        charge
        stage side position word : Step Event Link Unit) := by
    intro position word isEarly
    simp only [writeData, isEarly, if_false]
    rfl
  have last : ∀ word : UInt32, writeData side 3 word = (do
      charge
      stage side 3 word
      commit side : Step Event Link Unit) :=
    fun _ => rfl
  rw [writeBlock, early _ (by decide), early _ (by decide), early _ (by decide), last]
  simp only [bind_assoc, charges, stage_charge, stage_all]
  rfl

theorem run_load_of_unready {link : Link} {side : Side} (block : Block)
    (unready : ¬ (link.station side).IsReady) :
    (load side block).run link = ⟨.error .unavailable, link, []⟩ := by
  simp [load_eq, run_enqueue_of_unready block unready]

theorem value_load_of_ready {link : Link} {side : Side} (block : Block)
    (ready : (link.station side).IsReady) : ((load side block).run link).value = .ok () := by
  simp [load_eq, run_enqueue_of_ready block ready]

theorem run_commit_of_ready {link : Link} {side : Side}
    (ready : (link.station side).IsReady) :
    (commit side).run link =
      let loaded := (load side (link.staged.get side)).run link
      ⟨(), loaded.state, loaded.events⟩ := by
  simp [commit, value_load_of_ready _ ready]

/-- The words before the last one are staged and nothing else. -/
theorem run_writeData_of_early {link : Link} {side : Side} {position : Fin 4} {word : UInt32}
    (early : position ≠ 3) :
    (writeData side position word).run link =
      let charged := charge.run link
      ⟨(), charged.state.withStaged side ((charged.state.staged.get side).setWord word position),
        charged.events⟩ := by
  simp [writeData, early, run_stage]

theorem run_writeLast_of_ready {link : Link} {side : Side} {word : UInt32}
    (ready : ((charge.run link).state.station side).IsReady) :
    (writeData side 3 word).run link =
      let charged := charge.run link
      let block := (charged.state.staged.get side).setWord word 3
      let loaded := (load side block).run (charged.state.withStaged side block)
      ⟨(), loaded.state, charged.events ++ loaded.events⟩ := by
  have later := ready
  rw [← station_withStaged side _ (((charge.run link).state.staged.get side).setWord word 3)]
    at later
  simp [writeData, run_stage, run_commit_of_ready later, staged_withStaged]

theorem run_driverLoad (block : Block) :
    (Driver.load block).run (bus side) = (do
      let status ← Endpoint.status side
      if status.txInputReady then
        writeBlock side block
        return .ok (.ok ())
      else return .ok (.error .unavailable) :
      Step Event Link (Except Fault (Except Refusal Unit))) := by
  rw [Driver.load, Program.run_bind, run_status, bind_map_left]
  congr 1
  funext status
  by_cases ready : status.txInputReady = true
  · simp only [ready, if_true, Program.run_bind, Program.run_writeWord, Program.run_pure,
      bind_map_left, bind_assoc, write_bus, writeRegister_writeData, writeBlock]
  · simp only [ready, if_false, Program.run_pure, Bool.false_eq_true]

theorem run_endpointStatus (link : Link) :
    (Endpoint.status side).run link =
      ⟨((charge.run link).state.station side).status, (charge.run link).state,
        (charge.run link).events⟩ := by
  simp [Endpoint.status, status]

theorem run_driverLoad_of_unready {link : Link} {side : Side} (block : Block)
    (unready : ¬ ((charge.run link).state.station side).IsReady) :
    ((Driver.load block).run (bus side)).run link =
      ⟨.ok (.error .unavailable), (charge.run link).state, (charge.run link).events⟩ := by
  rw [← Station.txInputReady_iff] at unready
  simp [run_driverLoad, run_endpointStatus, unready]

theorem run_writeBlock_of_ready {link : Link} {side : Side} (block : Block)
    (ready : (link.station side).IsReady) :
    (writeBlock side block).run link =
      let loaded := (load side block).run (((charges 4).run link).state.withStaged side block)
      ⟨(), loaded.state, ((charges 4).run link).events ++ loaded.events⟩ := by
  have later : ((((charges 4).run link).state.withStaged side block).station side).IsReady := by
    rw [station_withStaged]
    exact ready_law.charges 4 _ side ready
  rw [writeBlock_eq, Step.run_bind, Step.run_bind, Step.run_update, run_commit_of_ready later,
    staged_withStaged]
  rfl

/-- A load that finds the instance ready succeeds at its last write. -/
theorem run_driverLoad_of_ready {link : Link} {side : Side} (block : Block)
    (ready : ((charge.run link).state.station side).IsReady) :
    ((Driver.load block).run (bus side)).run link =
      let loaded := (load side block).run (((charges 5).run link).state.withStaged side block)
      ⟨.ok (.ok ()), loaded.state, ((charges 5).run link).events ++ loaded.events⟩ := by
  have shown := (Station.txInputReady_iff _).mpr ready
  rw [run_driverLoad, Step.run_bind, run_endpointStatus, run_charges_succ 4]
  dsimp only
  rw [if_pos shown, Step.run_bind, run_writeBlock_of_ready block ready]
  simp only [Step.run_pure, List.append_assoc, List.append_nil]

theorem run_read_of_error {link : Link} {side : Side} {refusal : Refusal}
    (shown : (link.station side).peek = .error refusal) :
    (read side).run link = ⟨.error refusal, link, []⟩ := by
  simp [read_eq, run_dequeue_of_error shown]

theorem value_read_of_ok {link : Link} {side : Side} {block : Block}
    (shown : (link.station side).peek = .ok block) : ((read side).run link).value = .ok block := by
  simp [read_eq, run_dequeue_of_ok shown]

def readBlock : Step Event Link Block := do
  let word0 ← readData side 0
  let word1 ← readData side 1
  let word2 ← readData side 2
  let word3 ← readData side 3
  return ⟨word0, word1, word2, word3⟩

theorem run_readData_of_ok {link : Link} {side : Side} {block : Block} {position : Fin 4}
    (early : position ≠ 3) (shown : (link.station side).peek = .ok block) :
    (readData side position).run link =
      ⟨block.word position, (charge.run link).state, (charge.run link).events⟩ := by
  have still : (((charge.run link).state).station side).peek = .ok block :=
    (readable_law block).charge link side shown
  simp only [readData, early, if_false, Step.run_bind, Step.run_observe, still]
  simp [showData, Step.done, Step.run]

theorem run_readLast_of_ok {link : Link} {side : Side} {block : Block}
    (shown : (link.station side).peek = .ok block) :
    (readData side 3).run link =
      let taken := (read side).run (charge.run link).state
      ⟨block.word 3, taken.state, (charge.run link).events ++ taken.events⟩ := by
  have still : (((charge.run link).state).station side).peek = .ok block :=
    (readable_law block).charge link side shown
  simp only [readData, if_true, Step.run_bind, value_read_of_ok still]
  simp [showData, Step.done, Step.run]

/-- A read of the window shows nothing while no block can be read. -/
theorem run_readData_of_error {link : Link} {side : Side} {refusal : Refusal} {position : Fin 4}
    (shown : ((charge.run link).state.station side).peek = .error refusal) :
    (readData side position).run link =
      ⟨0, (charge.run link).state,
        (charge.run link).events ++ [.windowUnreadable side refusal]⟩ := by
  by_cases last : position = 3
  · simp only [readData, last, if_true, Step.run_bind, run_read_of_error shown]
    simp [showData]
  · simp only [readData, last, if_false, Step.run_bind, Step.run_observe, shown]
    simp [showData]

/-- The four reads of a block let time pass and take the block. -/
theorem run_readBlock_of_ok {link : Link} {side : Side} {block : Block}
    (shown : (link.station side).peek = .ok block) :
    (readBlock side).run link =
      let taken := (read side).run ((charges 4).run link).state
      ⟨block, taken.state, ((charges 4).run link).events ++ taken.events⟩ := by
  have second := (readable_law block).charge link side shown
  have third := (readable_law block).charge _ side second
  have fourth := (readable_law block).charge _ side third
  rw [readBlock, Step.run_bind, run_readData_of_ok (by decide) shown, Step.run_bind,
    run_readData_of_ok (by decide) second, Step.run_bind, run_readData_of_ok (by decide) third,
    Step.run_bind, run_readLast_of_ok fourth, run_charges_succ 3, run_charges_succ 2,
    run_charges_succ 1, run_charges_succ 0]
  simp only [charges, Step.run_skip, Step.run_pure, List.append_assoc, List.append_nil]
  rfl

theorem run_driverRead :
    Driver.read.run (bus side) = (do
      let status ← Endpoint.status side
      match status.refusal? with
      | some refusal => return .ok (.error refusal)
      | none =>
        let block ← readBlock side
        return .ok (.ok block) : Step Event Link (Except Fault (Except Refusal Block))) := by
  rw [Driver.read, Program.run_bind, run_status, bind_map_left]
  congr 1
  funext status
  unfold Status.refusal?
  by_cases isEmpty : (!status.rxValid) = true
  · simp only [isEmpty, if_true, Program.run_pure]
  · by_cases isHeld : (status.rxLast && status.rxLevel == 1) = true
    · simp only [isEmpty, isHeld, if_true, if_false, Program.run_pure, Bool.false_eq_true]
    · simp only [isEmpty, isHeld, if_false, Program.run_bind, Program.run_readWord,
        Program.run_pure, bind_map_left, bind_assoc, read_bus, readRegister_readData, readBlock,
        Bool.false_eq_true, pure_bind]

theorem run_driverRead_of_error {link : Link} {side : Side} {refusal : Refusal}
    (framed : ((charge.run link).state.station side).Framed)
    (shown : ((charge.run link).state.station side).peek = .error refusal) :
    (Driver.read.run (bus side)).run link =
      ⟨.ok (.error refusal), (charge.run link).state, (charge.run link).events⟩ := by
  have decided := Station.refusal?_status framed
  rw [shown] at decided
  rw [run_driverRead, Step.run_bind, run_endpointStatus]
  simp [decided]

/-- A read that finds a block takes it at its last access. -/
theorem run_driverRead_of_ok {link : Link} {side : Side} {block : Block}
    (framed : ((charge.run link).state.station side).Framed)
    (shown : ((charge.run link).state.station side).peek = .ok block) :
    (Driver.read.run (bus side)).run link =
      let taken := (read side).run ((charges 5).run link).state
      ⟨.ok (.ok block), taken.state, ((charges 5).run link).events ++ taken.events⟩ := by
  have decided := Station.refusal?_status framed
  rw [shown] at decided
  rw [run_driverRead, Step.run_bind, run_endpointStatus, run_charges_succ 4]
  dsimp only
  rw [decided]
  dsimp only
  rw [Step.run_bind, run_readBlock_of_ok shown]
  simp only [Step.run_pure, List.append_assoc, List.append_nil]

theorem run_writeWatermark_of_valid {link : Link} {side : Side} {queue : Queue} {level : UInt64}
    {word : UInt32} (valid : WatermarkValid level)
    (written : (ControlWord.watermark queue).get word = level.toNat) :
    (writeWatermark side queue word).run link =
      ⟨(), link.withStation side ((link.station side).withWatermark queue level), []⟩ := by
  have shown : UInt64.ofNat ((ControlWord.watermark queue).get word) = level := by
    rw [written, UInt64.ofNat_toNat]
  simp [writeWatermark, setWatermark, shown, run_atStation,
    Station.run_setWatermark_of_valid _ _ valid]

/-- A control write of valid levels sets both watermarks and then does what its pulses ask
for. -/
theorem run_writeControl_of_valid {link : Link} {side : Side} {word : UInt32}
    {levels : Queue → UInt64} (valid : ∀ queue, WatermarkValid (levels queue))
    (written : ∀ queue, (ControlWord.watermark queue).get word = (levels queue).toNat) :
    (writeControl side word).run link =
      let set := (charge.run link).state.withStation side
        (((charge.run link).state.station side).withWatermarks levels)
      let pulsed := (pulses side word).run set
      ⟨(), pulsed.state, (charge.run link).events ++ pulsed.events⟩ := by
  rw [writeControl_eq, Step.run_bind, Step.run_bind,
    run_writeWatermark_of_valid (valid .transmit) (written .transmit), Step.run_bind,
    run_writeWatermark_of_valid (valid .receive) (written .receive), station_withStation_self,
    withStation_withStation]
  rfl

/-- A control write that leaves the watermarks as they are does what its pulses ask for. -/
theorem run_writeControl_of_kept {link : Link} {side : Side} {word : UInt32}
    (valid : ((charge.run link).state.station side).Watermarked)
    (kept : ∀ queue, (ControlWord.watermark queue).get word =
      (((charge.run link).state.station side).watermark queue).toNat) :
    (writeControl side word).run link =
      let pulsed := (pulses side word).run (charge.run link).state
      ⟨(), pulsed.state, (charge.run link).events ++ pulsed.events⟩ := by
  rw [run_writeControl_of_valid valid kept, Station.withWatermarks_self, withStation_self]

theorem watermarked_law :
    Passage fun link _ last => ∀ side,
      (link.station side).Watermarked → (last.station side).Watermarked := by
  apply station_law Station.Watermarked
  · intro station count valid
    exact valid
  · intro now entries station valid
    rw [Station.intake_kept]
    exact valid

/-- An update of a control field reads a word that asks for nothing and shows the watermarks,
and writes it back with the field replaced. -/
theorem run_updateControl_shown {link : Link} {side : Side} (field : Field) (value : Nat)
    (valid : (link.station side).Watermarked) :
    ∃ word, ControlWord.Silent word ∧
      (∀ queue, (ControlWord.watermark queue).get word =
        ((link.station side).watermark queue).toNat) ∧
      ((Driver.updateControl field value).run (bus side)).run link =
        let written := (writeControl side (field.put word value)).run (charge.run link).state
        ⟨.ok (), written.state, (charge.run link).events ++ written.events⟩ := by
  have same := fun queue => (watermark_law queue _).charge link side rfl
  obtain ⟨word, shown, silent, levels⟩ :=
    Station.controlWord_eq (watermarked_law.charge link side valid)
  refine ⟨word, silent, ?_, ?_⟩
  · intro queue
    rw [levels, same]
  · rw [Driver.updateControl, Program.run_bind, Program.run_readWord, read_bus,
      readRegister_control, Step.run_bind, readControl, Step.run_bind, Step.run_observe]
    dsimp only
    rw [shown]
    dsimp only
    rw [Program.run_writeWord, write_bus, writeRegister_control, Step.run_map]
    simp only [List.append_nil]

/-- An update of a field outside the watermarks does what the new word asks for. -/
theorem run_updateControl {link : Link} {side : Side} (field : Field) (value : Nat)
    (valid : (link.station side).Watermarked) (fits : field.Fits)
    (apart : ∀ queue, field.Apart (ControlWord.watermark queue)) :
    ∃ word, ControlWord.Silent word ∧
      ((Driver.updateControl field value).run (bus side)).run link =
        let pulsed := (pulses side (field.put word value)).run ((charges 2).run link).state
        ⟨.ok (), pulsed.state, ((charges 2).run link).events ++ pulsed.events⟩ := by
  have validSecond := watermarked_law.charge _ side (watermarked_law.charge link side valid)
  obtain ⟨word, silent, levels, outcome⟩ := run_updateControl_shown field value valid
  refine ⟨word, silent, ?_⟩
  have kept : ∀ queue, (ControlWord.watermark queue).get (field.put word value) =
      (((charge.run (charge.run link).state).state.station side).watermark queue).toNat := by
    intro queue
    have first := (watermark_law queue _).charge link side rfl
    have second := (watermark_law queue _).charge (charge.run link).state side first
    rw [Field.get_put_of_apart _ _ fits (apart queue), levels, second]
  have written := run_writeControl_of_kept validSecond kept
  rw [outcome, written, run_charges_succ 1, run_charges_succ 0]
  simp only [charges, Step.run_skip, List.append_assoc, List.append_nil]

theorem run_pulses_of_silent {link : Link} {side : Side} {word : UInt32}
    (silent : ControlWord.Silent word) : (pulses side word).run link = ⟨(), link, []⟩ := by
  have skipped : ∀ field ∈ ControlWord.pulses, ∀ action, pulse field word action = Step.skip := by
    intro field isPulse action
    rw [pulse, silent field isPulse]
    rfl
  rw [pulses, skipped _ (by decide), skipped _ (by decide), skipped _ (by decide)]
  rfl

/-- What a single pulse asks for. -/
def pulseAction (side : Side) (field : Field) : Step Event Link Unit :=
  if field = ControlWord.txEnd then closeMessage side
  else if field = ControlWord.txTrigger then openMessage side
  else confirm side

theorem pulses_put {field : Field} {word : UInt32} (isPulse : field ∈ ControlWord.pulses)
    (silent : ControlWord.Silent word) :
    pulses side (field.put word 1) = pulseAction side field := by
  have isSet : ∀ other ∈ ControlWord.pulses,
      other.isSet (field.put word 1) = decide (other = field) :=
    fun other otherIsPulse => ControlWord.isSet_put_pulse silent isPulse otherIsPulse
  rw [pulses, pulse, pulse, pulse, isSet _ (by decide), isSet _ (by decide), isSet _ (by decide)]
  simp only [ControlWord.pulses, List.mem_cons, List.not_mem_nil, or_false] at isPulse
  rcases isPulse with rfl | rfl | rfl <;>
    simp [pulseAction, ControlWord.txEnd, ControlWord.txTrigger, ControlWord.rxConfirm]

theorem run_driverPulse {link : Link} {side : Side} {field : Field}
    (isPulse : field ∈ ControlWord.pulses) (valid : (link.station side).Watermarked) :
    ((Driver.updateControl field 1).run (bus side)).run link =
      let pulsed := (pulseAction side field).run ((charges 2).run link).state
      ⟨.ok (), pulsed.state, ((charges 2).run link).events ++ pulsed.events⟩ := by
  have apart : ∀ pulse ∈ ControlWord.pulses, ∀ queue,
      pulse.Apart (ControlWord.watermark queue) := by
    intro pulse member queue
    revert pulse
    cases queue <;> decide
  have fits : ∀ pulse ∈ ControlWord.pulses, pulse.Fits := by decide
  obtain ⟨word, silent, outcome⟩ :=
    run_updateControl field 1 valid (fits _ isPulse) (apart _ isPulse)
  rw [outcome, pulses_put side isPulse silent]

/-- An update of a watermark to a valid level sets it and does nothing else. -/
theorem run_driverSetWatermark {link : Link} {side : Side} (queue : Queue) {level : UInt64}
    (valid : (link.station side).Watermarked) (validLevel : WatermarkValid level) :
    ((Driver.updateControl (ControlWord.watermark queue) level.toNat).run (bus side)).run link =
      let set := (setWatermark side queue level).run ((charges 2).run link).state
      ⟨.ok (), set.state, ((charges 2).run link).events ++ set.events⟩ := by
  have validSecond := watermarked_law.charge _ side (watermarked_law.charge link side valid)
  obtain ⟨word, silent, levels, outcome⟩ :=
    run_updateControl_shown (ControlWord.watermark queue) level.toNat valid
  have same : ∀ other, (ControlWord.watermark other).get word =
      (((charge.run (charge.run link).state).state.station side).watermark other).toNat := by
    intro other
    have first := (watermark_law other _).charge link side rfl
    have second := (watermark_law other _).charge (charge.run link).state side first
    rw [levels, second]
  rw [outcome, run_writeControl_of_valid (validSecond.withWatermark queue validLevel)
    (ControlWord.get_put_watermark queue validLevel same)]
  dsimp only
  rw [run_pulses_of_silent (silent.put_watermark queue _), Station.withWatermarks_withWatermark,
    setWatermark, run_atStation, Station.run_setWatermark_of_valid _ _ validLevel,
    run_charges_succ 1, run_charges_succ 0]
  simp only [charges, Step.run_skip, List.append_nil, List.map_nil]

/-- Whether all watermarks of the link, and those it was created with, are ones that can be
set. -/
def Watermarked (link : Link) : Prop :=
  link.config.Accepted ∧ ∀ side, (link.station side).Watermarked

namespace Watermarked

variable {link : Link}

theorem idle {config : Config} (accepted : config.Accepted) (time : Time) :
    (Link.idle config time).Watermarked := by
  refine ⟨accepted, ?_⟩
  intro side queue
  have same : (Link.idle config time).station side = .idle config := PerSide.get_both ..
  rw [same]
  cases queue with
  | transmit => exact accepted.1
  | receive => exact accepted.2

theorem created {config : Config} (created : Link.create config = .ok link) :
    link.Watermarked := by
  obtain ⟨accepted, rfl⟩ := create_eq_ok_iff.mp created
  exact .idle accepted 0

theorem withStation (valid : link.Watermarked) (side : Side) {station : Station}
    (watermarked : station.Watermarked) : (link.withStation side station).Watermarked := by
  refine ⟨valid.1, ?_⟩
  intro other
  rcases Side.self_or_peer side other with rfl | rfl
  · rw [station_withStation_self]
    exact watermarked
  · rw [station_withStation_peer]
    exact valid.2 _

end Watermarked

theorem watermarks_law : Law fun link _ last => link.Watermarked → last.Watermarked where
  rest _ := id
  next first second := second ∘ first
  elapse _ _ := id
  deliver sender link valid :=
    ⟨valid.1, fun side => watermarked_law.deliver sender link side (valid.2 side)⟩
  setWatermark side queue level link valid := by
    rw [setWatermark, run_atStation]
    by_cases inRange : WatermarkValid level
    · rw [Station.run_setWatermark_of_valid _ queue inRange]
      exact valid.withStation side ((valid.2 side).withWatermark queue inRange)
    · rw [Station.run_setWatermark_of_invalid _ queue inRange, withStation_self]
      exact valid
  openMessage side link valid := by
    rw [openMessage, run_atStation]
    apply valid.withStation
    cases isOpen : (link.station side).messageOpen with
    | true =>
      rw [Station.run_openMessage_of_open isOpen]
      exact valid.2 side
    | false =>
      rw [Station.run_openMessage_of_shut isOpen]
      exact valid.2 side
  finish side link valid := by
    have finished := finished link side
    generalize (finish side).run link = outcome at finished ⊢
    cases finished with
    | shut | empty | waiting => exact valid.withStation side (valid.2 side)
    | crossed =>
      apply Watermarked.withStation
      · exact valid.withStation side (valid.2 side)
      · exact valid.2 side.peer
  confirm side link valid := by
    rw [run_atStation]
    apply valid.withStation
    cases isPending : (link.station side).boundaryPending with
    | true =>
      rw [Station.run_confirm_of_pending isPending]
      exact valid.2 side
    | false =>
      rw [Station.run_confirm_of_clear isPending]
      exact valid.2 side
  enqueue side block link valid := by
    by_cases ready : (link.station side).IsReady
    · rw [run_enqueue_of_ready block ready]
      exact valid.withStation side (valid.2 side)
    · rw [run_enqueue_of_unready block ready]
      exact valid
  dequeue side link valid := by
    cases shown : (link.station side).peek with
    | ok block =>
      rw [run_dequeue_of_ok shown]
      apply valid.withStation
      unfold Station.dropOldestRx
      split <;> exact valid.2 side
    | error refusal =>
      rw [run_dequeue_of_error shown]
      exact valid
  stage _ _ _ _ := id
  reset link valid := by
    rw [run_reset_of_accepted valid.1]
    exact .idle valid.1 link.time
  remark _ _ _ := id

end Link

end BlockLink
