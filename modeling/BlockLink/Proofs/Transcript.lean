import BlockLink.Bus.Script
import BlockLink.Proofs.Fault
import BlockLink.Proofs.Law
import BlockLink.Proofs.Word

/-!
What the driver does on a register window of any kind.

The driver decides from the words it reads and from nothing else, so all that it may do is told
by the transcripts of its programs: the accesses in order, with any words for answers. Reserved
bits and levels that no FIFO has are among these words.
-/

namespace BlockLink

/-- A register window of any kind, be there hardware behind it or a model. -/
structure Port (State : Type) where
  read : UInt32 → State → UInt32 × State
  write : UInt32 → UInt32 → State → State
  now : State → Time × State

/-- A port as a bus that keeps the accesses made on it, the oldest first. -/
def Port.recorded {State : Type} (port : Port State) : Bus (State × List Access) where
  read address := fun before =>
    let answered := port.read address before.1
    ⟨.ok answered.1, (answered.2, before.2 ++ [.read address answered.1]), []⟩
  write address word := fun before =>
    ⟨(), (port.write address word before.1, before.2 ++ [.write address word]), []⟩
  now := fun before =>
    let clock := port.now before.1
    ⟨clock.1, (clock.2, before.2), []⟩

/-- A flag is set if its bit is. -/
theorem Field.isSet_eq_testBit {field : Field} (isFlag : field.limit = 2) (word : UInt32) :
    field.isSet word = word.toNat.testBit field.offset := by
  rw [isSet, get, isFlag, Nat.testBit_eq_decide_div_mod_eq]
  congr 1
  exact propext Nat.mod_two_ne_zero

namespace Program

variable {State α β : Type}

/-- Whether a program may make these accesses and end with this answer. -/
inductive Yields : Program α → List Access → α → Prop where
  | answer (value : α) : Yields (.answer value) [] value
  | read {address : UInt32} {next : UInt32 → Program α} {accesses : List Access} {value : α}
    (word : UInt32) (rest : Yields (next word) accesses value) :
    Yields (.read address next) (.read address word :: accesses) value
  | write {address word : UInt32} {next : Program α} {accesses : List Access} {value : α}
    (rest : Yields next accesses value) :
    Yields (.write address word next) (.write address word :: accesses) value

/-- On a port, a program makes the accesses of one of its transcripts and does not fail. -/
theorem exists_yields (program : Program α) (port : Port State) (state : State)
    (before : List Access) :
    ∃ accesses value after, program.Yields accesses value ∧
      (program.run port.recorded).run (state, before) =
        ⟨.ok value, (after, before ++ accesses), []⟩ := by
  induction program generalizing state before with
  | answer value => exact ⟨[], value, state, .answer value, by simp [run, Step.done, Step.run]⟩
  | read address next inductionHypothesis =>
    obtain ⟨accesses, value, after, yields, outcome⟩ :=
      inductionHypothesis (port.read address state).1 (port.read address state).2
        (before ++ [.read address (port.read address state).1])
    refine ⟨_, value, after, .read _ yields, ?_⟩
    rw [List.append_assoc] at outcome
    rw [run, Step.run_bind]
    exact outcome
  | write address word next inductionHypothesis =>
    obtain ⟨accesses, value, after, yields, outcome⟩ :=
      inductionHypothesis (port.write address word state) (before ++ [.write address word])
    refine ⟨_, value, after, .write yields, ?_⟩
    rw [List.append_assoc] at outcome
    exact outcome

section Transcripts

variable {accesses : List Access}

theorem yields_pure_iff {value answer : α} :
    (pure value : Program α).Yields accesses answer ↔ accesses = [] ∧ answer = value := by
  constructor
  · rintro ⟨⟩
    exact ⟨rfl, rfl⟩
  · rintro ⟨rfl, rfl⟩
    exact .answer answer

theorem yields_readWord_bind_iff {address : UInt32} {next : UInt32 → Program α} {answer : α} :
    (readWord address >>= next).Yields accesses answer ↔
      ∃ word rest, (next word).Yields rest answer ∧ accesses = .read address word :: rest := by
  constructor
  · rintro (_ | ⟨word, rest⟩)
    exact ⟨word, _, rest, rfl⟩
  · rintro ⟨word, rest, yields, rfl⟩
    exact .read word yields

theorem yields_writeWord_bind_iff {address word : UInt32} {next : Unit → Program α}
    {answer : α} :
    (writeWord address word >>= next).Yields accesses answer ↔
      ∃ rest, (next ()).Yields rest answer ∧ accesses = .write address word :: rest := by
  constructor
  · rintro (_ | _ | rest)
    exact ⟨_, rest, rfl⟩
  · rintro ⟨rest, yields, rfl⟩
    exact .write yields

end Transcripts

end Program

namespace Driver

variable {accesses : List Access}

theorem exists_of_yields_status {shown : Status} (yields : status.Yields accesses shown) :
    ∃ word, shown = .ofWord word ∧ accesses = [.read Register.status.address word] := by
  obtain ⟨word, rest, answered, rfl⟩ := Program.yields_readWord_bind_iff.mp yields
  obtain ⟨rfl, rfl⟩ := Program.yields_pure_iff.mp answered
  exact ⟨word, rfl, rfl⟩

theorem yields_status_bind_iff {α : Type} {next : Status → Program α} {answer : α} :
    (status >>= next).Yields accesses answer ↔
      ∃ word rest, (next (.ofWord word)).Yields rest answer ∧
        accesses = .read Register.status.address word :: rest := by
  have regrouped : (status >>= next) =
      Program.readWord Register.status.address >>= fun word => next (.ofWord word) :=
    rfl
  rw [regrouped]
  exact Program.yields_readWord_bind_iff

/-- An update of CTRL is one read and one write. -/
theorem yields_updateControl_bind_iff {field : Field} {value : Nat} {α : Type}
    {next : Unit → Program α} {answer : α} :
    (updateControl field value >>= next).Yields accesses answer ↔
      ∃ word rest, (next ()).Yields rest answer ∧
        accesses = .read Register.control.address word ::
          .write Register.control.address (field.put word value) :: rest := by
  have regrouped : (updateControl field value >>= next) =
      Program.readWord Register.control.address >>= fun word =>
        Program.writeWord Register.control.address (field.put word value) >>= next :=
    rfl
  simp only [regrouped, Program.yields_readWord_bind_iff, Program.yields_writeWord_bind_iff]
  constructor
  · rintro ⟨word, -, ⟨rest, yields, rfl⟩, rfl⟩
    exact ⟨word, rest, yields, rfl⟩
  · rintro ⟨word, rest, yields, rfl⟩
    exact ⟨word, _, ⟨rest, yields, rfl⟩, rfl⟩

/-- Whether a STATUS word shows a block that may be read: one has arrived, and it is not the only
one while a boundary is pending. -/
def Readable (word : UInt32) : Prop :=
  word.toNat.testBit 5 = true ∧
    ¬ (word.toNat.testBit 12 = true ∧ StatusWord.rxLevel.get word = 1)

instance (word : UInt32) : Decidable (Readable word) :=
  inferInstanceAs (Decidable (_ ∧ _))

/-- What the driver answers when a STATUS word shows no block that may be read. -/
def unreadable (word : UInt32) : Refusal :=
  if word.toNat.testBit 5 then .blocked else .unavailable

/-- The reads of the read window that give a block. -/
def windowReads (block : Block) : List Access :=
  [.read (Register.readData 0).address block.word0,
    .read (Register.readData 1).address block.word1,
    .read (Register.readData 2).address block.word2,
    .read (Register.readData 3).address block.word3]

/-- The writes into the write window that load a block. -/
def windowWrites (block : Block) : List Access :=
  [.write (Register.writeData 0).address block.word0,
    .write (Register.writeData 1).address block.word1,
    .write (Register.writeData 2).address block.word2,
    .write (Register.writeData 3).address block.word3]

/-- A load writes all four words or none. -/
theorem exists_of_yields_load {block : Block} {answer : Except Refusal Unit}
    (yields : (load block).Yields accesses answer) :
    ∃ word, (answer, accesses) =
      if word.toNat.testBit 4 then
        (.ok (), .read Register.status.address word :: windowWrites block)
      else (.error .unavailable, [.read Register.status.address word]) := by
  obtain ⟨word, late, rest, rfl⟩ := yields_status_bind_iff.mp yields
  have flag : (Status.ofWord word).txInputReady = word.toNat.testBit 4 :=
    Field.isSet_eq_testBit rfl word
  refine ⟨word, ?_⟩
  rw [flag] at rest
  split at rest
  next ready =>
    simp only [Program.yields_writeWord_bind_iff, Program.yields_pure_iff] at rest
    obtain ⟨-, ⟨-, ⟨-, ⟨-, ⟨rfl, rfl⟩, rfl⟩, rfl⟩, rfl⟩, rfl⟩ := rest
    rw [if_pos ready]
    rfl
  next unready =>
    obtain ⟨rfl, rfl⟩ := Program.yields_pure_iff.mp rest
    rw [if_neg unready]

theorem rxLevel_ofWord (word : UInt32) :
    ((Status.ofWord word).rxLevel == 1) = decide (StatusWord.rxLevel.get word = 1) := by
  have level : (Status.ofWord word).rxLevel = min (StatusWord.rxLevel.get word) 4 := rfl
  rw [Bool.eq_iff_iff, beq_iff_eq, decide_eq_true_iff, level]
  omega

/-- A read takes all four words, in order and at the end, or touches the window not at all. -/
theorem exists_of_yields_read {answer : Except Refusal Block}
    (yields : read.Yields accesses answer) :
    ∃ word block, (answer, accesses) =
      if Readable word then (.ok block, .read Register.status.address word :: windowReads block)
      else (.error (unreadable word), [.read Register.status.address word]) := by
  obtain ⟨word, late, rest, rfl⟩ := yields_status_bind_iff.mp yields
  have valid : (Status.ofWord word).rxValid = word.toNat.testBit 5 :=
    Field.isSet_eq_testBit rfl word
  have last : (Status.ofWord word).rxLast = word.toNat.testBit 12 :=
    Field.isSet_eq_testBit rfl word
  rw [valid, last, rxLevel_ofWord] at rest
  by_cases readable : Readable word
  · have isShown : (!word.toNat.testBit 5) = false := by rw [readable.1, Bool.not_true]
    have isFree : (word.toNat.testBit 12 && decide (StatusWord.rxLevel.get word = 1)) = false := by
      simpa using readable.2
    simp only [isShown, isFree, Bool.false_eq_true, if_false, Program.yields_readWord_bind_iff,
      Program.yields_pure_iff] at rest
    obtain ⟨word0, -, ⟨word1, -, ⟨word2, -, ⟨word3, -, ⟨rfl, rfl⟩, rfl⟩, rfl⟩, rfl⟩, rfl⟩ := rest
    exact ⟨word, ⟨word0, word1, word2, word3⟩, (if_pos readable).symm⟩
  · refine ⟨word, .zero, ?_⟩
    rw [if_neg readable, unreadable]
    cases isShown : word.toNat.testBit 5 with
    | false =>
      rw [isShown] at rest
      obtain ⟨rfl, rfl⟩ := Program.yields_pure_iff.mp rest
      rfl
    | true =>
      have isHeld : (word.toNat.testBit 12 && decide (StatusWord.rxLevel.get word = 1)) = true := by
        simpa [Readable, isShown] using readable
      rw [isShown, isHeld] at rest
      obtain ⟨rfl, rfl⟩ := Program.yields_pure_iff.mp rest
      rfl

/-- What a call answers on a port, and the accesses that it makes there. -/
def transcript {State : Type} (port : Port State) (state : State) (command : Command) :
    Except Fault Reply × List Access :=
  let outcome := (perform port.recorded command).run (state, [])
  (outcome.value, outcome.state.2)

/-- Whether a call has done nothing but update CTRL: it has read a word and written it back with
the value in the field and every other bit as it was. -/
def UpdatesOnly (field : Field) (value : Nat) (made : Except Fault Reply × List Access) : Prop :=
  ∃ word written,
    made = (.ok .done, [.read Register.control.address word,
      .write Register.control.address written]) ∧
    field.get written = value ∧
    ∀ index, index < field.offset ∨ field.offset + field.width ≤ index →
      written.toNat.testBit index = word.toNat.testBit index

/-- Whether nothing but reads of STATUS was done from one state to another. -/
def OnlyPolls {State : Type} (first : State × List Access) (_ : List Event)
    (last : State × List Access) : Prop :=
  ∃ words : List UInt32, last.2 = first.2 ++ words.map (.read Register.status.address)

theorem chains_onlyPolls {State : Type} : Chains (@OnlyPolls State) where
  rest _ := ⟨[], by simp⟩
  next := by
    rintro first middle last - - ⟨early, reached⟩ ⟨late, ended⟩
    exact ⟨early ++ late, by rw [ended, reached, List.map_append, List.append_assoc]⟩

section Port

variable {State : Type} (port : Port State) (state : State)

/-- A call that is a program makes the accesses of the program and gives its reply. -/
theorem exists_transcript {α : Type} {program : Program α} {command : Command}
    {reply : α → Reply}
    (carried : perform port.recorded command =
      (do return reply <$> (← program.run port.recorded))) :
    ∃ accesses value, program.Yields accesses value ∧
      transcript port state command = (.ok (reply value), accesses) := by
  obtain ⟨accesses, value, after, yields, outcome⟩ := program.exists_yields port state []
  refine ⟨accesses, value, yields, ?_⟩
  rw [transcript, carried, Step.run_bind, outcome]
  rfl

/-- A value that fits is in its field after the update, and nothing else has changed. -/
theorem updatesOnly_of_program {α : Type} {field : Field} {value : Nat} {command : Command}
    {answer : α} {reply : α → Reply} (fits : field.Fits) (small : value < field.limit)
    (replies : reply answer = .done)
    (carried : perform port.recorded command =
      (do return reply <$> (← (do updateControl field value; return answer).run port.recorded))) :
    UpdatesOnly field value (transcript port state command) := by
  obtain ⟨accesses, given, yields, made⟩ := exists_transcript port state carried
  obtain ⟨word, rest, answered, rfl⟩ := yields_updateControl_bind_iff.mp yields
  obtain ⟨rfl, rfl⟩ := Program.yields_pure_iff.mp answered
  rw [replies] at made
  refine ⟨word, field.put word value, made, ?_, ?_⟩
  · rw [Field.get_put_self word value fits, Nat.mod_eq_of_lt small]
  · intro index outside
    rw [Field.testBit_put word value fits, if_neg (by omega)]

theorem updatesOnly_pulse {field : Field} {command : Command}
    (isPulse : field ∈ ControlWord.pulses)
    (carried : perform port.recorded command =
      (do return (fun _ => Reply.done) <$> (← (updateControl field 1).run port.recorded))) :
    UpdatesOnly field 1 (transcript port state command) := by
  have holds : ∀ pulse ∈ ControlWord.pulses, pulse.Fits ∧ 1 < pulse.limit := by decide
  exact updatesOnly_of_program port state (holds _ isPulse).1 (holds _ isPulse).2 rfl carried

theorem updatesOnly_setWatermark (queue : Queue) {level : UInt64} (valid : WatermarkValid level) :
    UpdatesOnly (ControlWord.watermark queue) level.toNat
      (transcript port state (.setWatermark queue level)) := by
  have holds : (ControlWord.watermark queue).Fits ∧ (ControlWord.watermark queue).limit = 4 := by
    cases queue <;> decide
  have small : level.toNat < 4 := valid.2
  have carried : perform port.recorded (.setWatermark queue level) =
      (do return Reply.ofUnit <$> (← (setWatermark queue level).run port.recorded)) :=
    rfl
  rw [setWatermark, if_pos valid] at carried
  exact updatesOnly_of_program port state holds.1 (holds.2 ▸ small) rfl carried

theorem transcript_setWatermark_of_invalid (queue : Queue) {level : UInt64}
    (invalid : ¬ WatermarkValid level) :
    transcript port state (.setWatermark queue level) =
      (.ok (.refused .invalidArgument), []) := by
  rw [transcript, perform, Step.run_bind, setWatermark, if_neg invalid]
  rfl

theorem exists_transcript_load (block : Block) :
    ∃ word, transcript port state (.load block) =
      if word.toNat.testBit 4 then
        (.ok .done, .read Register.status.address word :: windowWrites block)
      else (.ok (.refused .unavailable), [.read Register.status.address word]) := by
  obtain ⟨accesses, answer, yields, made⟩ :=
    exists_transcript port state (rfl : perform port.recorded (.load block) = _)
  obtain ⟨word, outcome⟩ := exists_of_yields_load yields
  refine ⟨word, made.trans ?_⟩
  split at outcome
  next ready => cases outcome; rw [if_pos ready]; rfl
  next unready => cases outcome; rw [if_neg unready]; rfl

theorem exists_transcript_read :
    ∃ word block, transcript port state .read =
      if Readable word then
        (.ok (.block block), .read Register.status.address word :: windowReads block)
      else (.ok (.refused (unreadable word)), [.read Register.status.address word]) := by
  obtain ⟨accesses, answer, yields, made⟩ :=
    exists_transcript port state (rfl : perform port.recorded .read = _)
  obtain ⟨word, block, outcome⟩ := exists_of_yields_read yields
  refine ⟨word, block, made.trans ?_⟩
  split at outcome
  next readable => cases outcome; rw [if_pos readable]; rfl
  next blank => cases outcome; rw [if_neg blank]; rfl

theorem exists_transcript_status :
    ∃ word, transcript port state .status =
      (.ok (.status (.ofWord word)), [.read Register.status.address word]) := by
  obtain ⟨accesses, shown, yields, made⟩ :=
    exists_transcript port state (rfl : perform port.recorded .status = _)
  obtain ⟨word, rfl, rfl⟩ := exists_of_yields_status yields
  exact ⟨word, made⟩

theorem exists_run_status (before : State × List Access) :
    ∃ word after, (status.run port.recorded).run before =
      ⟨.ok (.ofWord word), (after, before.2 ++ [.read Register.status.address word]), []⟩ := by
  obtain ⟨accesses, shown, after, yields, outcome⟩ :=
    status.exists_yields port before.1 before.2
  obtain ⟨word, rfl, rfl⟩ := exists_of_yields_status yields
  exact ⟨word, after, outcome⟩

/-- However long a wait takes, it reads STATUS and nothing else, and it ends with an answer. -/
theorem exists_transcript_waitFor (aim : Watch.Aim) :
    ∃ (words : List UInt32) (answer : Except Refusal Unit),
      transcript port state (.waitFor aim) =
        (.ok (.ofUnit answer), words.map (.read Register.status.address)) := by
  have polled : (watch port.recorded).status.Within OnlyPolls := by
    intro before
    obtain ⟨word, after, outcome⟩ := exists_run_status port before
    rw [watch, outcome]
    exact ⟨[word], rfl⟩
  have answers (before : State × List Access) :
      ∃ shown, ((watch port.recorded).status.run before).value = .ok shown := by
    obtain ⟨word, after, outcome⟩ := exists_run_status port before
    exact ⟨.ofWord word, congrArg Outcome.value outcome⟩
  have silent (before : State × List Access) : OnlyPolls before [] before :=
    chains_onlyPolls.rest before
  obtain ⟨words, made⟩ := Watch.within_waitFor chains_onlyPolls polled silent
    (fun _ _ _ => silent) aim (state, [])
  obtain ⟨answer, answered⟩ := Watch.exists_answer answers aim (state, [])
  refine ⟨words, answer, ?_⟩
  rw [transcript, perform, Step.run_bind, answered]
  exact Prod.ext rfl made

end Port

theorem consumes_iff_of_other {reply : Reply} {accesses : List Access}
    (absent : ∀ word, .read (Register.readData 3).address word ∉ accesses)
    (other : ∀ block, reply ≠ .block block) :
    (∃ word, .read (Register.readData 3).address word ∈ accesses) ↔
      ∃ block, (.ok reply : Except Fault Reply) = .ok (.block block) := by
  apply iff_of_false
  · rintro ⟨word, member⟩
    exact absent word member
  · rintro ⟨block, same⟩
    exact other block (Except.ok.inj same)

theorem UpdatesOnly.consumes_iff {field : Field} {value : Nat}
    {made : Except Fault Reply × List Access} (updates : UpdatesOnly field value made) :
    (∃ word, .read (Register.readData 3).address word ∈ made.2) ↔
      ∃ block, made.1 = .ok (.block block) := by
  obtain ⟨word, written, rfl, -⟩ := updates
  exact consumes_iff_of_other (by simp [Register.address]) nofun

/-- The word that consumes a block is read by no call but one that answers with the block. -/
theorem consumes_iff {State : Type} (port : Port State) (state : State) (command : Command) :
    (∃ word, .read (Register.readData 3).address word ∈ (transcript port state command).2) ↔
      ∃ block, (transcript port state command).1 = .ok (.block block) := by
  cases command with
  | openMessage | closeMessage | confirm =>
    exact (updatesOnly_pulse port state (by decide) rfl).consumes_iff
  | setWatermark queue level =>
    by_cases valid : WatermarkValid level
    · exact (updatesOnly_setWatermark port state queue valid).consumes_iff
    · rw [transcript_setWatermark_of_invalid port state queue valid]
      exact consumes_iff_of_other (by simp) nofun
  | load block =>
    obtain ⟨word, made⟩ := exists_transcript_load port state block
    rw [made]
    split <;> exact consumes_iff_of_other (by simp [windowWrites, Register.address]) nofun
  | read =>
    obtain ⟨word, block, made⟩ := exists_transcript_read port state
    rw [made]
    split
    · exact iff_of_true ⟨block.word3, by simp [windowReads]⟩ ⟨block, rfl⟩
    · exact consumes_iff_of_other (by simp [Register.address]) nofun
  | status =>
    obtain ⟨word, made⟩ := exists_transcript_status port state
    rw [made]
    exact consumes_iff_of_other (by simp [Register.address]) nofun
  | now =>
    have made : transcript port state .now = (.ok (.time (port.now state).1), []) := rfl
    rw [made]
    exact consumes_iff_of_other (by simp) nofun
  | waitFor aim =>
    obtain ⟨words, answer, made⟩ := exists_transcript_waitFor port state aim
    rw [made]
    apply consumes_iff_of_other
    · simp [Register.address]
    · cases answer <;> nofun

/-- On a register window of any kind, whatever words it answers: a call that changes CTRL reads it
once and writes it back with one field replaced, a load writes its block word by word or writes
nothing, a read takes a block word by word or leaves the window alone, and a level that is out of
range touches no register. So the word that consumes a block is read by no call but one that
answers with the block. -/
theorem safe_on_any_port {State : Type} (port : Port State) (state : State) :
    let made := transcript port state
    let shown word := Access.read Register.status.address word
    UpdatesOnly ControlWord.txTrigger 1 (made .openMessage) ∧
    UpdatesOnly ControlWord.txEnd 1 (made .closeMessage) ∧
    UpdatesOnly ControlWord.rxConfirm 1 (made .confirm) ∧
    (∀ queue level,
      if WatermarkValid level then
        UpdatesOnly (ControlWord.watermark queue) level.toNat (made (.setWatermark queue level))
      else made (.setWatermark queue level) = (.ok (.refused .invalidArgument), [])) ∧
    (∀ block, ∃ word, made (.load block) =
      if word.toNat.testBit 4 then (.ok .done, shown word :: windowWrites block)
      else (.ok (.refused .unavailable), [shown word])) ∧
    (∃ word block, made .read =
      if Readable word then (.ok (.block block), shown word :: windowReads block)
      else (.ok (.refused (unreadable word)), [shown word])) ∧
    (∃ word, made .status = (.ok (.status (.ofWord word)), [shown word])) ∧
    (∃ time, made .now = (.ok (.time time), [])) ∧
    (∀ aim, ∃ (words : List UInt32) (answer : Except Refusal Unit),
      made (.waitFor aim) = (.ok (.ofUnit answer), words.map shown)) ∧
    ∀ command, (∃ word, .read (Register.readData 3).address word ∈ (made command).2) ↔
      ∃ block, (made command).1 = .ok (.block block) := by
  intro made shown
  have opened : UpdatesOnly ControlWord.txTrigger 1 (made .openMessage) :=
    updatesOnly_pulse port state (by decide) rfl
  have closed : UpdatesOnly ControlWord.txEnd 1 (made .closeMessage) :=
    updatesOnly_pulse port state (by decide) rfl
  have confirmed : UpdatesOnly ControlWord.rxConfirm 1 (made .confirm) :=
    updatesOnly_pulse port state (by decide) rfl
  have clock : ∃ time, made .now = (.ok (.time time), []) := ⟨(port.now state).1, rfl⟩
  refine ⟨opened, closed, confirmed, ?_, exists_transcript_load port state,
    exists_transcript_read port state, exists_transcript_status port state, clock,
    exists_transcript_waitFor port state, consumes_iff port state⟩
  intro queue level
  split
  next valid => exact updatesOnly_setWatermark port state queue valid
  next invalid => exact transcript_setWatermark_of_invalid port state queue invalid

/-- A window that answers every read with ones shows a level that no FIFO has, so its block may be
read although a boundary is pending, and an update keeps the bits that have no name. -/
example :
    let port : Port Unit := ⟨fun _ _ => (0xFFFFFFFF, ()), fun _ _ _ => (), fun _ => (0, ())⟩
    let ones : Block := ⟨0xFFFFFFFF, 0xFFFFFFFF, 0xFFFFFFFF, 0xFFFFFFFF⟩
    (transcript port () .read).2 =
        .read Register.status.address 0xFFFFFFFF :: windowReads ones ∧
      (transcript port () (.setWatermark .receive 1)).2 =
        [.read Register.control.address 0xFFFFFFFF,
          .write Register.control.address 0xFFFFFFBF] := by
  decide +kernel

end Driver

end BlockLink
