import BlockLink.Proofs.Conservation
import BlockLink.Proofs.Drain
import BlockLink.Proofs.Fault
import BlockLink.Proofs.Hold
import BlockLink.Proofs.Refused

/-!
What the data windows keep of the accesses to them.

A word of the write window stays as it was written last, until the link is reset, whatever
happens in between. So the block that the last word offers for loading can be told from the
record of the run. An access to any address that stands for no command lets time pass and does
nothing else, and the last word of the read window takes the block that it shows.
-/

namespace BlockLink

theorem Block.word_zero (position : Fin 4) : Block.zero.word position = 0 := by
  match position with
  | 0 | 1 | 2 | 3 => rfl

namespace Record

variable (side : Side) (position : Fin 4)

/-- The word that an operation has written to one place of the write window of a side. A load
through the registers writes to all of them if it is done, and to none if it is refused. -/
def written? (record : Record) : Option UInt32 :=
  match record.operation with
  | .writeRegister writer address word =>
    if writer = side ∧ address = (Register.writeData position).address then some word else none
  | .call .registers caller (.load block) =>
    if caller = side ∧ record.answer = .reply .done then some (block.word position) else none
  | _ => none

/-- The word that was written last to one place of the write window of a side since the last
reset, or zero if none was. -/
def lastWritten (records : List Record) : UInt32 :=
  let sinceReset := records.reverse.takeWhile (·.operation ≠ .reset)
  (sinceReset.findSome? (written? side position)).getD 0

theorem lastWritten_concat (records : List Record) (record : Record) :
    lastWritten side position (records ++ [record]) =
      if record.operation = .reset then 0
      else (record.written? side position).getD (lastWritten side position records) := by
  rw [lastWritten, List.reverse_concat]
  by_cases isReset : record.operation = .reset
  · simp [isReset]
  · rw [if_neg isReset, List.takeWhile_cons_of_pos (by simpa using isReset),
      List.findSome?_cons]
    cases record.written? side position <;> rfl

end Record

namespace Link

/-- Nothing has changed and nothing but remarks was reported. -/
def Remarks (first : Link) (events : List Event) (last : Link) : Prop :=
  last = first ∧ ∀ event ∈ events, event.IsRemark

theorem chains_remarks : Chains Remarks where
  rest _ := ⟨rfl, nofun⟩
  next first second :=
    ⟨second.1.trans first.1, fun event member =>
      (List.mem_append.mp member).elim (first.2 event) (second.2 event)⟩

/-- Whether a step lets the time of one access pass and does nothing else. -/
def OnlyCharges {α : Type} (step : Step Event Link α) : Prop :=
  ∀ link, ∃ remarks : List Event, (∀ event ∈ remarks, event.IsRemark) ∧
    step.run link =
      ⟨(step.run link).value, (charge.run link).state, (charge.run link).events ++ remarks⟩

section Idle

variable {α β : Type} {link : Link} (side : Side)

theorem OnlyCharges.of_remarks {next : Step Event Link α} (remarks : next.Within Remarks) :
    OnlyCharges (do charge; next) := by
  intro link
  obtain ⟨unchanged, remarked⟩ := remarks (charge.run link).state
  refine ⟨(next.run (charge.run link).state).events, remarked, ?_⟩
  rw [Step.run_bind, unchanged]

theorem OnlyCharges.map {step : Step Event Link α} (charges : OnlyCharges step)
    (change : α → β) : OnlyCharges (change <$> step) := by
  intro link
  obtain ⟨remarks, remarked, outcome⟩ := charges link
  refine ⟨remarks, remarked, ?_⟩
  rw [Step.run_map, outcome, List.append_nil]

theorem within_remark (event : Event) (isRemark : event.IsRemark) :
    (Step.report event).Within Remarks :=
  fun _ => ⟨rfl, by simpa using isRemark⟩

theorem onlyCharges_readEarly {position : Fin 4} (early : position ≠ 3) :
    OnlyCharges (readData side position) := by
  apply OnlyCharges.of_remarks
  simp only [early, if_false]
  apply Step.within_bind chains_remarks (Step.within_observe chains_remarks _)
  intro shown
  cases shown with
  | ok block => exact Step.within_pure chains_remarks _
  | error refusal =>
    exact Step.within_answer chains_remarks (within_remark (.windowUnreadable _ _) trivial) _

/-- No read but that of the last word of the read window changes anything. -/
theorem onlyCharges_readRegister {address : UInt32}
    (apart : address ≠ (Register.readData 3).address) :
    OnlyCharges (readRegister side address) := by
  have blank {event : Event} (isRemark : event.IsRemark) :
      OnlyCharges (readRegister.blank event) := by
    apply OnlyCharges.of_remarks
    exact Step.within_answer chains_remarks (within_remark event isRemark) _
  have observed {α : Type} (view : Link → α) : OnlyCharges (do charge; Step.observe view) :=
    OnlyCharges.of_remarks (Step.within_observe chains_remarks view)
  unfold readRegister
  split
  next => exact (observed _).map _
  next => exact observed _
  next position found =>
    have early : position ≠ 3 := by
      rintro rfl
      exact apart (Register.eq_address_of_found found)
    exact (onlyCharges_readEarly side early).map _
  all_goals exact blank trivial

/-- No write but one to CTRL or into the write window changes anything. -/
theorem onlyCharges_writeRegister {address : UInt32} (word : UInt32)
    (notControl : address ≠ Register.control.address)
    (notData : ∀ position, address ≠ (Register.writeData position).address) :
    OnlyCharges (writeRegister side address word) := by
  have ignore {event : Event} (isRemark : event.IsRemark) :
      OnlyCharges (writeRegister.ignore event) :=
    OnlyCharges.of_remarks (within_remark event isRemark)
  unfold writeRegister
  split
  next found => exact absurd (Register.eq_address_of_found found) notControl
  next position found => exact absurd (Register.eq_address_of_found found) (notData position)
  all_goals exact ignore trivial

end Idle

/-- Words are staged by the writes into the write window and by nothing else. -/
theorem staged_kept : Reading fun first _ last => last.staged = first.staged where
  rest _ := rfl
  next first second := second.trans first
  elapse _ _ := rfl
  deliver sender link := (aside_law.deliver sender link).staged
  setWatermark side queue level link := staged_effect link side (.setWatermark queue level)
  openMessage side link := staged_effect link side .openMessage
  finish side link := (aside_finish link side).staged
  confirm _ _ := rfl
  remark _ _ _ := rfl
  dequeue side link := by
    cases shown : (link.station side).peek with
    | ok block =>
      rw [run_dequeue_of_ok shown]
      rfl
    | error refusal => rw [run_dequeue_of_error shown]

section Staging

variable {link : Link} {side : Side} {position : Fin 4}

/-- The words that a side has staged. -/
theorem staged_withStaged_eq (caller : Side) (block : Block) :
    (link.withStaged caller block).staged.get side =
      if caller = side then block else link.staged.get side := by
  rcases Side.self_or_peer caller side with rfl | rfl
  · rw [if_pos rfl, staged_withStaged]
  · rw [if_neg (Side.ne_peer caller)]
    exact PerSide.get_set_peer ..

theorem staged_charge (link : Link) : (charge.run link).state.staged = link.staged :=
  staged_kept.charge link

/-- The last word is staged whether or not the block can be loaded. -/
theorem staged_writeData (position : Fin 4) (word : UInt32) :
    ((writeData side position word).run link).state.staged =
      (link.withStaged side ((link.staged.get side).setWord word position)).staged := by
  have charged := staged_charge link
  by_cases last : position = 3
  · subst last
    by_cases ready : ((charge.run link).state.station side).IsReady
    · rw [run_writeLast_of_ready ready]
      refine (staged_effect _ side (.load _)).trans ?_
      simp only [withStaged, charged]
    · rw [run_writeLast_of_unready word ready]
      simp only [withStaged, charged]
  · rw [run_writeData_of_early last]
    simp only [withStaged, charged]

theorem word_withStaged_setWord (link : Link) (caller side : Side) (word : UInt32)
    (place position : Fin 4) :
    ((link.withStaged caller ((link.staged.get caller).setWord word place)).staged.get
        side).word position =
      if caller = side ∧ place = position then word
      else (link.staged.get side).word position := by
  rw [staged_withStaged_eq]
  by_cases own : caller = side
  · subst own
    rw [if_pos rfl, Block.word_setWord]
    simp only [true_and, eq_comm]
  · rw [if_neg own, if_neg fun both => own both.1]

theorem written?_of_not_load (route : Route) (caller : Side) (command : Command)
    (notLoad : ∀ block, command ≠ .load block) :
    (record (.call route caller command) link).written? side position = none := by
  cases route with
  | direct => rfl
  | registers =>
    cases command with
    | load block => exact absurd rfl (notLoad block)
    | setWatermark | openMessage | closeMessage | confirm | read | status | now | waitFor => rfl

theorem staged_call_of_not_load (route : Route) (caller : Side) {command : Command}
    (notLoad : ∀ block, command ≠ .load block) :
    ((call route caller command).run link).state.staged = link.staged := by
  cases command with
  | load block => exact absurd rfl (notLoad block)
  | read => exact (staged_kept.readingBy caller).callRead route link
  | setWatermark | openMessage | closeMessage | confirm | status | now | waitFor =>
    exact staged_kept.call route caller _ id link

theorem word_staged_callLoad (route : Route) (caller : Side) (block : Block) :
    (((call route caller (.load block)).run link).state.staged.get side).word position =
      ((record (.call route caller (.load block)) link).written? side position).getD
        ((link.staged.get side).word position) := by
  rw [record_call]
  cases route with
  | direct =>
    have isAccess : (Command.load block).IsAccess := trivial
    rw [run_directCall link caller isAccess]
    dsimp only
    rw [staged_effect, staged_charge]
    rfl
  | registers =>
    by_cases ready : ((charge.run link).state.station caller).IsReady
    · have charged : ((charges 5).run link).state.staged = link.staged :=
        staged_kept.charges 5 link
      have loaded (offering : Link) :
          ((load caller block).run offering).state.staged = offering.staged :=
        staged_effect offering caller (.load block)
      rw [run_registersLoad_of_ready ready]
      dsimp only
      rw [loaded, staged_withStaged_eq, charged]
      by_cases own : caller = side <;> simp [Record.written?, Answer.ofReply, own]
    · rw [run_registersLoad_of_unready ready]
      dsimp only
      rw [staged_charge]
      simp [Record.written?, Answer.ofReply]

theorem word_staged_writeRegister (caller : Side) (address word : UInt32) :
    (((writeRegister caller address word).run link).state.staged.get side).word position =
      if caller = side ∧ address = (Register.writeData position).address then word
      else (link.staged.get side).word position := by
  by_cases isData : ∃ place, address = (Register.writeData place).address
  · obtain ⟨place, rfl⟩ := isData
    rw [writeRegister_writeData, staged_writeData, word_withStaged_setWord]
    have same : (Register.writeData place).address = (Register.writeData position).address ↔
        place = position :=
      ⟨fun found => Register.writeData.inj (Register.eq_of_address_eq found),
        congrArg fun place => (Register.writeData place).address⟩
    simp only [same]
  · have foreign : ∀ place, address ≠ (Register.writeData place).address :=
      fun place found => isData ⟨place, found⟩
    rw [if_neg fun both => foreign position both.2]
    by_cases isControl : address = Register.control.address
    · subst isControl
      have kept := (staged_kept.framingBy caller).writeControl word link
      rw [writeRegister_control, kept]
    · obtain ⟨remarks, -, outcome⟩ := onlyCharges_writeRegister caller word isControl foreign link
      rw [outcome]
      dsimp only
      rw [staged_charge]

theorem word_of_staged_eq {last : Link} (kept : last.staged = link.staged) :
    (last.staged.get side).word position = (link.staged.get side).word position := by
  rw [kept]

/-- What an operation leaves staged is what its record tells that it wrote. -/
theorem word_staged_perform (accepted : link.config.Accepted) (operation : Operation)
    (fresh : ¬ operation.Restores) :
    (((perform operation).run link).state.staged.get side).word position =
      if operation = .reset then 0
      else ((record operation link).written? side position).getD
        ((link.staged.get side).word position) := by
  cases operation with
  | restore => exact absurd trivial fresh
  | reset =>
    have isIdle : ((perform .reset).run link).state = .idle link.config link.time := by
      rw [perform, Step.run_bind, run_reset_of_accepted accepted]
      rfl
    rw [isIdle, if_pos rfl, idle, PerSide.get_both, Block.word_zero]
  | call route caller command =>
    rw [if_neg (fun isReset => by cases isReset)]
    by_cases loads : ∃ block, command = .load block
    · obtain ⟨block, rfl⟩ := loads
      exact word_staged_callLoad route caller block
    · have notLoad : ∀ block, command ≠ .load block := fun block same => loads ⟨block, same⟩
      rw [written?_of_not_load route caller command notLoad]
      exact word_of_staged_eq (staged_call_of_not_load route caller notLoad)
  | writeRegister caller address word =>
    rw [if_neg (fun isReset => by cases isReset)]
    refine (word_staged_writeRegister caller address word).trans ?_
    by_cases own : caller = side ∧ address = (Register.writeData position).address <;>
      simp [record, Record.written?, own]
  | readRegister caller address =>
    exact word_of_staged_eq (staged_kept.readRegister caller address link)
  | advance cycles => exact word_of_staged_eq (staged_kept.advance cycles link)
  | reportStatus caller => exact word_of_staged_eq (staged_kept.reportStatus caller link)

end Staging

theorem records_append (first second : List Operation) (link : Link) :
    records (first ++ second) link =
      records first link ++ records second ((performAll first).run link).state := by
  induction first generalizing link with
  | nil => rfl
  | cons operation rest inductionHypothesis =>
    exact congrArg (record operation link :: ·)
      (inductionHypothesis ((perform operation).run link).state)

theorem word_staged_performAll {start : Link} (accepted : start.config.Accepted)
    (nothing : start.staged = .both .zero) (operations : List Operation)
    (fresh : ∀ operation ∈ operations, ¬ operation.Restores) (side : Side) (position : Fin 4) :
    (((performAll operations).run start).state.staged.get side).word position =
      Record.lastWritten side position (records operations start) := by
  induction operations using List.reverseRecOn with
  | nil =>
    change (start.staged.get side).word position = 0
    rw [nothing, PerSide.get_both, Block.word_zero]
  | append_singleton earlier operation inductionHypothesis =>
    have freshEarlier : ∀ before ∈ earlier, ¬ before.Restores :=
      fun before member => fresh before (List.mem_append_left _ member)
    have isFresh : ¬ operation.Restores := fresh operation (by simp)
    have staged := inductionHypothesis freshEarlier
    have sameConfig := config_law.performAll earlier freshEarlier start
    rw [records_append, (run_performAll_append earlier [operation] start).2]
    generalize ((performAll earlier).run start).state = middle at staged sameConfig ⊢
    have acceptedMiddle : middle.config.Accepted := sameConfig ▸ accepted
    change (((perform operation).run middle).state.staged.get side).word position =
      Record.lastWritten side position (records earlier start ++ [record operation middle])
    rw [word_staged_perform acceptedMiddle operation isFresh, Record.lastWritten_concat, staged]
    rfl

theorem run_read_of_ok {link : Link} {side : Side} {block : Block}
    (shown : (link.station side).peek = .ok block) :
    (read side).run link =
      let settled := settle.run (link.withoutOldest side)
      ⟨.ok block, settled.state, .read side block :: settled.events⟩ := by
  rw [read_eq, Step.run_bind, run_dequeue_of_ok shown]
  simp [withoutOldest]

/-- What is reported of a block that could not be loaded. -/
def dropped (side : Side) : Except Refusal Unit → List Event
  | .ok () => []
  | .error refusal => [.blockDropped side refusal]

theorem run_commit (link : Link) (side : Side) :
    (commit side).run link =
      let loaded := (load side (link.staged.get side)).run link
      ⟨(), loaded.state, loaded.events ++ dropped side loaded.value⟩ := by
  rw [commit, Step.run_bind, Step.run_observe, Step.run_bind]
  dsimp only
  cases ((load side (link.staged.get side)).run link).value <;> rfl

theorem run_writeLast (link : Link) (side : Side) (word : UInt32) :
    (writeData side 3 word).run link =
      let charged := charge.run link
      let committed := (commit side).run
        (charged.state.withStaged side ((charged.state.staged.get side).setWord word 3))
      ⟨(), committed.state, charged.events ++ committed.events⟩ := by
  simp [writeData, run_stage]

theorem run_readLast (link : Link) (side : Side) :
    (readData side 3).run link =
      let charged := charge.run link
      match (charged.state.station side).peek with
      | .ok block =>
        let settled := settle.run (charged.state.withoutOldest side)
        ⟨block.word3, settled.state, charged.events ++ .read side block :: settled.events⟩
      | .error refusal =>
        ⟨0, charged.state, charged.events ++ [.windowUnreadable side refusal]⟩ := by
  dsimp only
  cases shown : ((charge.run link).state.station side).peek with
  | ok block =>
    simp only [readData, if_true, Step.run_bind, run_read_of_ok shown, run_showData_of_ok]
    simp [Block.word]
  | error refusal => exact run_readData_of_error shown

end Link

namespace Run

variable (run : Run) (side : Side)

/-- What is staged at the end of a run are the words that were written last. -/
theorem word_staged (position : Fin 4) :
    (run.link.staged.get side).word position =
      Record.lastWritten side position run.records := by
  obtain ⟨accepted, isIdle⟩ := Link.create_eq_ok_iff.mp run.created
  apply Link.word_staged_performAll _ _ _ run.fresh
  · rw [isIdle]
    exact accepted
  · rw [isIdle]
    rfl

/-- The block that a write of the last word offers for loading at the end of a run. -/
def offered (word : UInt32) : Block where
  word0 := Record.lastWritten side 0 run.records
  word1 := Record.lastWritten side 1 run.records
  word2 := Record.lastWritten side 2 run.records
  word3 := word

theorem staged_setWord_last (word : UInt32) :
    (run.link.staged.get side).setWord word 3 = run.offered side word := by
  apply Block.ext
  · exact run.word_staged side 0
  · exact run.word_staged side 1
  · exact run.word_staged side 2
  · rfl

/-- No read fails, for CTRL can show every watermark that can be set. -/
theorem exists_word (address : UInt32) :
    ∃ word, ((Link.readRegister side address).run run.link).value = .ok word := by
  have unfailing := Link.fault?_readRegister run.link side address
  rw [(run.watermarked.2 side).overflow?_eq_none, ite_self] at unfailing
  cases answered : ((Link.readRegister side address).run run.link).value with
  | ok word => exact ⟨word, rfl⟩
  | error fault =>
    rw [answered] at unfailing
    cases unfailing

/-- A write of the last word of the write window offers the block of the words that were written
last, whatever has happened in between, and a refusal drops it. An access to any other address
lets time pass and does nothing else, unless it writes to CTRL or into the window, or reads the
last word of the read window; that read takes the oldest block if and only if it can be read
behind the charge. -/
theorem data_windows (run : Run) (side : Side) :
    let passed := (Link.advance run.link.config.accessCycles).run run.link
    let reading address := (Link.perform (.readRegister side address)).run run.link
    let writing address word := (Link.perform (.writeRegister side address word)).run run.link
    (∀ word,
      let block := run.offered side word
      let loaded := (Link.load side block).run (passed.state.withStaged side block)
      writing (Register.writeData 3).address word =
        ⟨.done, loaded.state,
          passed.events ++ (loaded.events ++ Link.dropped side loaded.value)⟩) ∧
    (∀ address, address ≠ (Register.readData 3).address →
      ∃ (word : UInt32) (remarks : List Event), (∀ event ∈ remarks, event.IsRemark) ∧
        reading address = ⟨.word word, passed.state, passed.events ++ remarks⟩) ∧
    (∀ address word, address ≠ Register.control.address →
      (∀ position, address ≠ (Register.writeData position).address) →
      ∃ remarks : List Event, (∀ event ∈ remarks, event.IsRemark) ∧
        writing address word = ⟨.done, passed.state, passed.events ++ remarks⟩) ∧
    reading (Register.readData 3).address =
      (match (passed.state.station side).peek with
        | .ok block =>
          let settled := Link.settle.run (passed.state.withoutOldest side)
          ⟨.word block.word3, settled.state, passed.events ++ .read side block :: settled.events⟩
        | .error refusal =>
          ⟨.word 0, passed.state, passed.events ++ [.windowUnreadable side refusal]⟩) := by
  intro passed reading writing
  have charged : Link.charge.run run.link = passed := Link.run_charge run.link
  refine ⟨?_, ?_, ?_, ?_⟩
  · intro word block loaded
    have offered : (passed.state.staged.get side).setWord word 3 = block := by
      rw [← charged, Link.staged_charge, run.staged_setWord_last]
    dsimp only [writing]
    rw [Link.run_performWriteData, Link.run_writeLast, charged]
    dsimp only
    rw [offered, Link.run_commit, Link.staged_withStaged]
  · intro address apart
    obtain ⟨remarks, remarked, outcome⟩ :=
      Link.onlyCharges_readRegister side apart run.link
    obtain ⟨word, answered⟩ := run.exists_word side address
    refine ⟨word, remarks, remarked, ?_⟩
    dsimp only [reading]
    rw [Link.perform, Step.run_map, outcome, answered, charged, List.append_nil]
    rfl
  · intro address word notControl notData
    obtain ⟨remarks, remarked, outcome⟩ :=
      Link.onlyCharges_writeRegister side word notControl notData run.link
    refine ⟨remarks, remarked, ?_⟩
    dsimp only [writing]
    rw [Link.perform, Step.run_bind, outcome, charged]
    simp
  · dsimp only [reading]
    rw [Link.run_performReadData, Link.run_readLast, charged]
    dsimp only
    cases (passed.state.station side).peek <;> rfl

/-- Words are written in any order and on both sides, one is written again between two blocks, and
a third block is offered although the message is over. -/
theorem data_windows_of_partial_rewrite :
    let write side position word : Operation :=
      .writeRegister side (Register.writeData position).address word
    let run : Run := {
      config := {}
      start := .idle {} 0
      created := rfl
      operations :=
        [write .left 1 7, .reset, .call .direct .left .openMessage, write .left 2 9,
          write .right 0 8, write .left 0 5, write .left 3 6, write .left 0 4, write .left 3 2,
          .call .direct .left .closeMessage]
      fresh := by decide }
    let passed := (Link.advance run.link.config.accessCycles).run run.link
    let reading address := (Link.perform (.readRegister .right address)).run run.link
    let writing address word := (Link.perform (.writeRegister .left address word)).run run.link
    (writing (Register.writeData 3).address 1).events = [.blockDropped .left .unavailable] ∧
    (writing (Register.writeData 3).address 1).state.staged.left = ⟨4, 0, 9, 1⟩ ∧
    (reading 0x36).state = passed.state ∧
    (writing 0xFFFFFFFF 3).state = passed.state ∧
    (reading (Register.readData 3).address).value = .word 6 := by
  intro write run passed reading writing
  obtain ⟨offers, -, idleWrite, -⟩ := run.data_windows .left
  obtain ⟨-, idleRead, -, takes⟩ := run.data_windows .right
  have block : run.offered .left 1 = ⟨4, 0, 9, 1⟩ := by decide +kernel
  have offered := offers 1
  obtain ⟨word, remarks, -, read⟩ := idleRead 0x36 (by decide)
  obtain ⟨remarksWrite, -, written⟩ :=
    idleWrite 0xFFFFFFFF 3 (by decide +kernel) (by decide +kernel)
  dsimp only at offered read written takes
  dsimp only [reading, writing, passed]
  rw [block] at offered
  rw [offered, read, written, takes]
  dsimp only
  refine ⟨?_, ?_, rfl, rfl, ?_⟩
  · decide +kernel
  · decide +kernel
  · decide +kernel

end Run

end BlockLink
