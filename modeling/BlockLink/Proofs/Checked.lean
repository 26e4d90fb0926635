import BlockLink.Proofs.Bus
import BlockLink.Proofs.Word

/-!
Pushes, packed fields, window positions and counters with their checks.

A push asks for the room that it needs, a field keeps the bits that fit, a window has
four words and a wait knows how many polls are left, so none of these can go wrong where
it stands in the model. Here each of them is written once more the way that it can: the
check comes when it is too late to refuse, and a check that fails breaks the operation
off. Nothing ever breaks off, whatever a FIFO, a clock or a register holds.
-/

namespace BlockLink

/-- Why an operation would be broken off. -/
inductive Breach where
  /-- A block was put into a full FIFO. -/
  | fifoFull
  /-- A word was looked for outside its window. -/
  | outOfWindow
  /-- A counter went past its largest value. -/
  | counterOverflow
  /-- A loop ran longer than it was given time for. -/
  | endless

namespace Fifo

/-- Append the newest entry to a FIFO that nobody has looked at. -/
def pushChecked (fifo : Fifo) (entry : Entry) : Except Breach Fifo :=
  if room : fifo.HasRoom then .ok (fifo.push entry room) else .error .fifoFull

theorem pushChecked_of_room {fifo : Fifo} (entry : Entry) (room : fifo.HasRoom) :
    fifo.pushChecked entry = .ok (fifo.push entry room) :=
  dif_pos room

theorem hasRoom_iff (fifo : Fifo) : fifo.HasRoom ↔ fifo.size ≠ depth := by
  have bound := fifo.size_le
  unfold HasRoom size
  omega

end Fifo

namespace Station

/-- Queue a block for transmission, unless no message is open or the FIFO is full. -/
def loadChecked (block : Block) (readyAt : Time) (station : Station) :
    Except Breach (Except Refusal Unit × Station) :=
  if station.messageOpen = false ∨ station.tx.size = Fifo.depth then
    return (.error .unavailable, station)
  else do
    let tx ← station.tx.pushChecked { block, final := false, readyAt }
    return (.ok (), { station with tx, messageLoaded := true })

theorem loadChecked_eq (block : Block) (readyAt : Time) (station : Station) :
    station.loadChecked block readyAt =
      .ok (((load block readyAt).run station).value, ((load block readyAt).run station).state) := by
  unfold loadChecked
  by_cases ready : station.messageOpen = true ∧ station.tx.HasRoom
  · have taken : ¬ (station.messageOpen = false ∨ station.tx.size = Fifo.depth) := by
      rw [ready.1, not_or]
      exact ⟨nofun, station.tx.hasRoom_iff.mp ready.2⟩
    rw [if_neg taken, Fifo.pushChecked_of_room _ ready.2]
    simp only [Step.run, load, ready, and_self, dif_pos]
    rfl
  · have refused : station.messageOpen = false ∨ station.tx.size = Fifo.depth := by
      rw [Fifo.hasRoom_iff] at ready
      cases isOpen : station.messageOpen with
      | false => exact .inl rfl
      | true => exact .inr (Decidable.byContradiction fun notFull => ready ⟨isOpen, notFull⟩)
    rw [if_pos refused]
    simp only [Step.run, load, ready, dif_neg, not_false_eq_true]
    rfl

/-- Take an entry off the link, no matter whether it was allowed in. -/
def acceptChecked (station : Station) (entry : Entry) : Except Breach Station := do
  let rx ← station.rx.pushChecked entry
  return { station with rx, boundaryPending := station.boundaryPending || entry.final }

/-- Take as many of the waiting entries, in order, as are ready and can be accepted. -/
def intakeChecked (now : Time) : List Entry → Station → Except Breach (Nat × Station)
  | [], receiver => return (0, receiver)
  | entry :: rest, receiver =>
    if entry.readyAt ≤ now ∧ receiver.CanAccept then do
      let (count, receiver) ← intakeChecked now rest (← receiver.acceptChecked entry)
      return (count + 1, receiver)
    else return (0, receiver)

theorem intakeChecked_eq (now : Time) (waiting : List Entry) (receiver : Station) :
    intakeChecked now waiting receiver = .ok (intake now waiting receiver) := by
  induction waiting generalizing receiver with
  | nil => rfl
  | cons entry rest inductionHypothesis =>
    by_cases able : entry.readyAt ≤ now ∧ receiver.CanAccept
    · have accepted : receiver.acceptChecked entry = .ok (receiver.accept entry able.2) := by
        rw [acceptChecked, Fifo.pushChecked_of_room entry able.2.1]
        rfl
      rw [intakeChecked, if_pos able, accepted]
      simp only [intake, able, and_self, dif_pos]
      change (intakeChecked now rest (receiver.accept entry able.2) >>= _) = _
      rw [inductionHypothesis]
      rfl
    · simp only [intakeChecked, intake, able, if_neg, dif_neg, not_false_eq_true]
      rfl

end Station

namespace Field

/-- Put values into the fields of a word, one after another. -/
def assignAll (parts : List (Field × Nat)) (word : UInt32) : Except Fault UInt32 :=
  parts.foldlM (fun word part => part.1.assign word part.2) word

/-- A field above all that a word holds adds its value. -/
theorem toNat_put_of_lt {field : Field} {word : UInt32} {value : Nat} (fits : field.Fits)
    (above : word.toNat < 2 ^ field.offset) (small : value < field.limit) :
    (field.put word value).toNat = word.toNat + value % field.limit * 2 ^ field.offset := by
  have clear : word.toNat / 2 ^ (field.offset + field.width) = 0 := by
    apply Nat.div_eq_of_lt
    exact Nat.lt_of_lt_of_le above (Nat.pow_le_pow_right (by decide) (Nat.le_add_right ..))
  rw [toNat_put word value fits, clear, Nat.mod_eq_of_lt above, Nat.mod_eq_of_lt small,
    Nat.mod_eq_of_lt (show value < 2 ^ field.width from small), Nat.mul_zero, Nat.zero_add,
    Nat.mul_comm, Nat.add_comm]

/-- Values that fit into fields which follow each other add up to a word. -/
theorem assignAll_of_ordered {parts : List (Field × Nat)} {word : UInt32}
    (ordered : parts.Pairwise fun lower upper =>
      lower.1.offset + lower.1.width ≤ upper.1.offset)
    (fits : ∀ part ∈ parts, part.1.Fits) (small : ∀ part ∈ parts, part.2 < part.1.limit)
    (above : ∀ part ∈ parts, word.toNat < 2 ^ part.1.offset) :
    ∃ shown, assignAll parts word = .ok shown ∧
      shown.toNat =
        word.toNat + (parts.map fun part => part.2 % part.1.limit * 2 ^ part.1.offset).sum := by
  induction parts generalizing word with
  | nil => exact ⟨word, rfl, rfl⟩
  | cons part rest inductionHypothesis =>
    rw [List.pairwise_cons] at ordered
    rw [List.forall_mem_cons] at fits small above
    have added := toNat_put_of_lt fits.1 above.1 small.1
    have inside : (part.1.put word part.2).toNat < 2 ^ (part.1.offset + part.1.width) := by
      have value : part.2 + 1 ≤ 2 ^ part.1.width := small.1
      calc (part.1.put word part.2).toNat
        _ = word.toNat + part.2 * 2 ^ part.1.offset := by rw [added, Nat.mod_eq_of_lt small.1]
        _ < (part.2 + 1) * 2 ^ part.1.offset := by rw [Nat.succ_mul]; omega
        _ ≤ 2 ^ part.1.width * 2 ^ part.1.offset := Nat.mul_le_mul_right _ value
        _ = 2 ^ (part.1.offset + part.1.width) := by rw [← Nat.pow_add, Nat.add_comm]
    have aboveRest : ∀ later ∈ rest, (part.1.put word part.2).toNat < 2 ^ later.1.offset := by
      intro later member
      exact Nat.lt_of_lt_of_le inside
        (Nat.pow_le_pow_right (by decide) (ordered.1 later member))
    obtain ⟨shown, assigned, total⟩ :=
      inductionHypothesis ordered.2 fits.2 small.2 aboveRest
    refine ⟨shown, ?_, ?_⟩
    · rw [← assigned, assignAll, List.foldlM_cons, assign_of_lt word small.1]
      rfl
    · rw [total, added, List.map_cons, List.sum_cons, Nat.add_assoc]

end Field

/-- The fields of a STATUS word and what they show. -/
def Status.parts (status : Status) : List (Field × Nat) :=
  [(StatusWord.tx, status.txActive.toNat),
    (StatusWord.txFull, status.txFull.toNat),
    (StatusWord.rxFull, status.rxFull.toNat),
    (StatusWord.txEmpty, status.txEmpty.toNat),
    (StatusWord.txInputReady, status.txInputReady.toNat),
    (StatusWord.rxValid, status.rxValid.toNat),
    (StatusWord.txLevel, min status.txLevel Fifo.depth),
    (StatusWord.rxLevel, min status.rxLevel Fifo.depth),
    (StatusWord.rxLast, status.rxLast.toNat)]

theorem Status.assemble_parts (status : Status) :
    Field.assemble status.parts = status.toWord :=
  rfl

/-- The STATUS word that shows a status, put together field by field. -/
def Status.toWordChecked (status : Status) : Except Fault UInt32 :=
  Field.assignAll status.parts 0

theorem Status.toWordChecked_eq (status : Status) :
    status.toWordChecked = .ok status.toWord := by
  have flag (shown : Bool) : shown.toNat < 2 := Nat.lt_succ_of_le shown.toNat_le
  have level (level : Nat) : min level Fifo.depth < 8 :=
    Nat.lt_of_le_of_lt (Nat.min_le_right ..) (by decide)
  have fields : status.parts.map Prod.fst = StatusWord.fields := rfl
  have ordered : status.parts.Pairwise fun lower upper =>
      lower.1.offset + lower.1.width ≤ upper.1.offset := by
    have ordered : StatusWord.fields.Pairwise fun lower upper =>
        lower.offset + lower.width ≤ upper.offset := by
      decide
    rw [← fields, List.pairwise_map] at ordered
    exact ordered
  have fits : ∀ part ∈ status.parts, part.1.Fits := by
    have fits : ∀ field ∈ StatusWord.fields, field.Fits := by decide
    intro part member
    exact fits part.1 (fields ▸ List.mem_map_of_mem member)
  have small : ∀ part ∈ status.parts, part.2 < part.1.limit := by
    simp only [parts, List.forall_mem_cons]
    exact ⟨flag _, flag _, flag _, flag _, flag _, flag _, level _, level _, flag _, nofun⟩
  have above : ∀ part ∈ status.parts, (0 : UInt32).toNat < 2 ^ part.1.offset :=
    fun part _ => Nat.two_pow_pos part.1.offset
  obtain ⟨shown, assigned, total⟩ := Field.assignAll_of_ordered ordered fits small above
  rw [UInt32.toNat_zero, Nat.zero_add] at total
  rw [toWordChecked, assigned, ← status.assemble_parts, Field.assemble, ← total,
    UInt32.ofNat_toNat]

namespace Register

/-- The place of an address in a window of four words from a base on. -/
def placeChecked (base address : UInt32) : Except Breach (Fin 4) :=
  if base ≤ address then
    if inside : ((address - base) >>> 2).toNat < 4 then
      .ok ⟨((address - base) >>> 2).toNat, inside⟩
    else .error .outOfWindow
  else .error .counterOverflow

theorem placeChecked_of_writeData {address : UInt32} {position : Fin 4}
    (found : ofAddress? address = some (.writeData position)) :
    placeChecked (writeData 0).address address = .ok position := by
  rw [eq_address_of_found found]
  match position with
  | 0 | 1 | 2 | 3 => rfl

theorem placeChecked_of_readData {address : UInt32} {position : Fin 4}
    (found : ofAddress? address = some (.readData position)) :
    placeChecked (readData 0).address address = .ok position := by
  rw [eq_address_of_found found]
  match position with
  | 0 | 1 | 2 | 3 => rfl

end Register

namespace Watch

variable {State : Type}

/-- Poll until the aim is met or the budget is used up, with a counter of as many bits as the
clock has. The loop itself has no end of its own; it is cut off after a number of turns. -/
def pollChecked (watch : Watch State) (aim : Aim) (start : Time) (turns : Nat) (polls : Time)
    (state : State) (events : List Event) :
    Except Breach (Outcome Event State (Except Fault (Except Refusal Unit))) :=
  match turns with
  | 0 => .error .endless
  | turns + 1 =>
    let shown := watch.status.run state
    let events := events ++ shown.events
    match shown.value with
    | .error fault => .ok ⟨.error fault, shown.state, events⟩
    | .ok status =>
      if aim.IsMet status then .ok ⟨.ok (.ok ()), shown.state, events⟩
      else if polls.toNat + 1 < 2 ^ 64 then
        let clock := watch.now.run shown.state
        let events := events ++ clock.events
        let spent := max (Time.since clock.value start) (polls + 1)
        if aim.timeout ≤ spent then
          .ok ⟨.ok (.error .timeout), clock.state,
            events ++ [.waitTimedOut aim.flag aim.expected spent]⟩
        else pollChecked watch aim start turns (polls + 1) clock.state events
      else .error .counterOverflow

/-- Wait until a flag reads as expected, for as many turns as the budget has cycles, and for one
turn at least. -/
def waitForChecked (watch : Watch State) (aim : Aim) (state : State) :
    Except Breach (Outcome Event State (Except Fault (Except Refusal Unit))) :=
  let clock := watch.now.run state
  pollChecked watch aim clock.value (max aim.timeout.toNat 1) 0 clock.state clock.events

/-- Each poll counts as a cycle at least. -/
theorem le_elapsed (start now : Time) {polls : Nat} (small : polls < 2 ^ 64) :
    polls ≤ (elapsed start now polls).toNat := by
  have counted : (UInt64.ofNat polls).toNat = polls := UInt64.toNat_ofNat_of_lt' small
  rw [elapsed, ← counted, ← UInt64.le_iff_toNat_le, counted]
  change _ ≤ if _ then _ else _
  split
  · exact UInt64.le_refl _
  · exact UInt64.le_of_lt (UInt64.not_le.mp ‹_›)

theorem toNat_succ {polls : Time} (small : polls.toNat + 1 < 2 ^ 64) :
    (polls + 1).toNat = polls.toNat + 1 := by
  rw [UInt64.toNat_add]
  exact Nat.mod_eq_of_lt small

theorem elapsed_succ (start now : Time) {polls : Time} (small : polls.toNat + 1 < 2 ^ 64) :
    max (Time.since now start) (polls + 1) = elapsed start now (polls.toNat + 1) := by
  rw [elapsed, ← toNat_succ small, UInt64.ofNat_toNat]

/-- Each turn uses up a cycle of the budget at least, so the budget ends the loop before the
counter or the turns do. -/
theorem pollChecked_eq (watch : Watch State) (aim : Aim) (start : Time) (more : Nat) (polls : Time)
    (state : State) (events : List Event)
    (budget : polls.toNat + 1 + more = max aim.timeout.toNat 1) :
    pollChecked watch aim start (more + 1) polls state events =
      .ok (poll watch aim start more (polls.toNat + 1) state events) := by
  have bound := aim.timeout.toNat_lt
  induction more generalizing polls state events with
  | zero =>
    have small : polls.toNat + 1 < 2 ^ 64 := by omega
    have spent (now : Time) : aim.timeout ≤ elapsed start now (polls.toNat + 1) := by
      have counts := le_elapsed start now small
      rw [UInt64.le_iff_toNat_le]
      omega
    unfold pollChecked poll
    dsimp only
    cases (watch.status.run state).value with
    | error fault => rfl
    | ok status =>
      by_cases met : aim.IsMet status
      · simp only [met, if_true]
      · simp only [met, small, elapsed_succ start _ small, spent, if_true, if_false]
  | succ more inductionHypothesis =>
    have small : polls.toNat + 1 < 2 ^ 64 := by omega
    have later (state : State) (events : List Event) :=
      inductionHypothesis (polls + 1) state events (by rw [toNat_succ small]; omega)
    rw [toNat_succ small] at later
    unfold pollChecked poll
    dsimp only
    cases (watch.status.run state).value with
    | error fault => rfl
    | ok status =>
      by_cases met : aim.IsMet status
      · simp only [met, if_true]
      · simp only [met, small, elapsed_succ start _ small, if_true, if_false, later]
        split <;> rfl

theorem waitForChecked_eq (watch : Watch State) (aim : Aim) (state : State) :
    watch.waitForChecked aim state = .ok ((watch.waitFor aim).run state) := by
  have turns : max aim.timeout.toNat 1 = aim.timeout.toNat - 1 + 1 := by omega
  rw [waitForChecked, turns]
  apply pollChecked_eq
  rw [UInt64.toNat_zero]
  omega

end Watch

end BlockLink
