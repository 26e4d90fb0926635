import BlockLink.Benchmark.Basic
import BlockLink.Proofs.Arrival
import BlockLink.Proofs.Refused

/-!
What the benchmark waits for, and when it waits in vain.

A busy wait has no budget. It ends with the first poll that shows what it waits for, and if no
poll does it never ends. All that a poll changes is the time, so the benchmark finishes if the
time passes that its block needs to cross, and on a clock that its accesses do not move it
finishes only if a block needs no time at all.
-/

namespace BlockLink.Benchmark

section Polls

variable (side : Side) (field : Field) (link : Link)

/-- What the last of a number of polls shows of a flag. -/
def shown (polls : Nat) : Bool :=
  field.isSet (((Link.charges polls).run link).state.status side).toWord

theorem state_readStatus :
    ((Link.readStatus side).run link).state = (Link.charge.run link).state :=
  rfl

theorem shown_succ (polls : Nat) :
    shown side field link (polls + 1) = shown side field (Link.charge.run link).state polls :=
  rfl

theorem await_eq (expected : Bool) :
    await side field expected link =
      if shown side field link 1 = expected then .ok (Link.charge.run link).state
      else if link.time < (Link.charge.run link).state.time then
        await side field expected (Link.charge.run link).state
      else .error .stalled := by
  rw [await]
  rfl

/-- Whether a busy wait sees what it waits for at one poll, and not at an earlier one. -/
structure EndsAt (expected : Bool) (polls : Nat) : Prop where
  met : shown side field link (polls + 1) = expected
  early : ∀ earlier < polls, shown side field link (earlier + 1) ≠ expected

variable {side field link}

/-- When an access takes no time, further accesses change nothing. -/
theorem state_charges_of_still (still : ¬ link.time < (Link.charge.run link).state.time)
    (count : Nat) :
    ((Link.charges (count + 1)).run link).state = (Link.charge.run link).state := by
  have sameTime : (Link.charge.run link).state.time = link.time :=
    UInt64.le_antisymm (UInt64.not_lt.mp still) (Link.time_law.charge link)
  have sameTimeAgain : (Link.charge.run (Link.charge.run link).state).state.time =
      (Link.charge.run link).state.time :=
    Link.time_charges sameTime (Link.aside_law.charge link).config 1
  have fixed : (Link.charge.run (Link.charge.run link).state).state =
      (Link.charge.run link).state := by
    apply Link.eq_of_lanes (Link.aside_law.charge _) _ sameTimeAgain
    intro sender
    rw [Link.lane_charge, sameTimeAgain]
    exact Lane.flow_of_settled (Link.settled_charge link sender)
  induction count with
  | zero => rfl
  | succ count inductionHypothesis =>
    rw [Link.state_charges_last, inductionHypothesis, fixed]

/-- A busy wait ends with the first poll that shows what it waits for. -/
theorem await_of_endsAt {expected : Bool} {polls : Nat}
    (ends : EndsAt side field link expected polls) :
    await side field expected link = .ok ((Link.charges (polls + 1)).run link).state := by
  induction polls generalizing link with
  | zero =>
    rw [await_eq, if_pos ends.met]
    rfl
  | succ polls inductionHypothesis =>
    have missed := ends.early 0 (Nat.succ_pos polls)
    have later : link.time < (Link.charge.run link).state.time := by
      by_contra still
      have met := ends.met
      rw [shown, state_charges_of_still still] at met
      exact missed met
    have endsLater : EndsAt side field (Link.charge.run link).state expected polls := by
      refine ⟨by rw [← shown_succ]; exact ends.met, ?_⟩
      intro earlier isEarlier
      rw [← shown_succ]
      exact ends.early (earlier + 1) (Nat.succ_lt_succ isEarlier)
    rw [await_eq, if_neg missed, if_pos later, Link.state_charges_succ]
    exact inductionHypothesis endsLater

/-- A busy wait for what no poll ever shows does not end. -/
theorem await_of_never {expected : Bool}
    (never : ∀ polls, shown side field link (polls + 1) ≠ expected) :
    await side field expected link = .error .stalled := by
  induction link using await.induct side field expected with
  | case1 link _ met => exact absurd met (never 0)
  | case2 link _ missed later inductionHypothesis =>
    have moves : link.time < (Link.charge.run link).state.time := later
    rw [await_eq, if_neg (never 0), if_pos moves]
    apply inductionHypothesis
    intro polls
    have missedLater := never (polls + 1)
    rw [shown_succ] at missedLater
    exact missedLater
  | case3 link _ missed still =>
    have stands : ¬ link.time < (Link.charge.run link).state.time := still
    rw [await_eq, if_neg (never 0), if_neg stands]

variable (side field link) (expected : Bool)

theorem endsAt_or_never :
    (∃ polls, EndsAt side field link expected polls) ∨
      ∀ polls, shown side field link (polls + 1) ≠ expected := by
  classical
  by_cases met : ∃ polls, shown side field link (polls + 1) = expected
  · exact .inl ⟨Nat.find met, Nat.find_spec met, fun _ => Nat.find_min met⟩
  · exact .inr (not_exists.mp met)

/-- A busy wait ends if and only if some poll shows what it waits for, and then with the first
one that does. -/
theorem await_ok_iff (last : Link) :
    await side field expected link = .ok last ↔
      ∃ polls, EndsAt side field link expected polls ∧
        last = ((Link.charges (polls + 1)).run link).state := by
  constructor
  · intro ended
    rcases endsAt_or_never side field link expected with ⟨polls, ends⟩ | never
    · rw [await_of_endsAt ends] at ended
      exact ⟨polls, ends, (Except.ok.inj ended).symm⟩
    · rw [await_of_never never] at ended
      cases ended
  · rintro ⟨polls, ends, rfl⟩
    exact await_of_endsAt ends

theorem await_stalled_iff :
    await side field expected link = .error .stalled ↔
      ∀ polls, shown side field link (polls + 1) ≠ expected := by
  refine ⟨fun stalled polls met => ?_, await_of_never⟩
  rcases endsAt_or_never side field link expected with ⟨first, ends⟩ | never
  · rw [await_of_endsAt ends] at stalled
    cases stalled
  · exact never polls met

end Polls

theorem writeBlock_eq (side : Side) (block : Block) (link : Link) :
    writeBlock side block link = ((Link.writeBlock side block).run link).state :=
  rfl

theorem readBlock_eq (side : Side) (link : Link) :
    readBlock side link =
      (((Link.readBlock side).run link).value, ((Link.readBlock side).run link).state) :=
  rfl

section Lanes

/-- What is sent, as an entry that may cross at `readyAt`. -/
def sent (readyAt : Time) : Entry := { block := data, final := false, readyAt }

/-- The lane from the left with a block that waits, before anything crosses. -/
def carrying (readyAt : Time) : Lane where
  waiting := [sent readyAt]
  arrived := []
  isOpen := true
  isLoaded := true
  isPending := false

theorem flow_carrying_of_due {readyAt now : Time} (due : readyAt ≤ now) :
    (carrying readyAt).flow now =
      { carrying readyAt with waiting := [], arrived := [sent readyAt] } := by
  have able : (sent readyAt).readyAt ≤ now ∧ (carrying readyAt).CanAccept :=
    ⟨due, Lane.canAccept_of_consumed rfl rfl⟩
  exact Lane.flowOf_of_able able

/-- Whether nothing is on its way, and the left side has its message open. -/
structure Clear (link : Link) : Prop where
  outbound : ∃ isLoaded, link.lane .left = { Lane.idle with isOpen := true, isLoaded }
  inbound : link.lane .right = .idle

/-- Whether a block that was sent from the left may cross at `readyAt`, or has crossed, and is all
that is on its way. -/
structure Carries (readyAt : Time) (link : Link) : Prop where
  outbound : link.lane .left = (carrying readyAt).flow link.time
  inbound : link.lane .right = .idle

variable {link : Link} {readyAt : Time}

/-- What every access keeps holds after any number of them. -/
theorem holds_charges {Holds : Link → Prop}
    (kept : ∀ link, Holds link → Holds (Link.charge.run link).state) (holds : Holds link)
    (count : Nat) : Holds ((Link.charges count).run link).state := by
  induction count with
  | zero => exact holds
  | succ count inductionHypothesis =>
    rw [Link.state_charges_last]
    exact kept _ inductionHypothesis

theorem Clear.charge (clear : Clear link) : Clear (Link.charge.run link).state := by
  obtain ⟨isLoaded, outbound⟩ := clear.outbound
  refine ⟨⟨isLoaded, ?_⟩, ?_⟩
  · rw [Link.lane_charge, outbound]
    rfl
  · rw [Link.lane_charge, clear.inbound]
    rfl

theorem Clear.charges (clear : Clear link) (count : Nat) :
    Clear ((Link.charges count).run link).state :=
  holds_charges (fun _ => Clear.charge) clear count

theorem Carries.charge (carries : Carries readyAt link) :
    Carries readyAt (Link.charge.run link).state := by
  refine ⟨?_, ?_⟩
  · rw [Link.lane_charge, carries.outbound, Lane.flow_flow (Link.time_law.charge link)]
  · rw [Link.lane_charge, carries.inbound]
    rfl

theorem Carries.charges (carries : Carries readyAt link) (count : Nat) :
    Carries readyAt ((Link.charges count).run link).state :=
  holds_charges (fun _ => Carries.charge) carries count

theorem shown_txFull (side : Side) (polls : Nat) :
    shown side StatusWord.txFull link polls =
      decide (((((Link.charges polls).run link).state.lane side).waiting.length) = Fifo.depth) := by
  have flag := congrArg Status.txFull
    (Station.ofWord_status (((Link.charges polls).run link).state.station side))
  exact flag

theorem shown_rxValid (side : Side) (polls : Nat) :
    shown side StatusWord.rxValid link polls =
      decide (0 < (((Link.charges polls).run link).state.lane side.peer).arrived.length) := by
  have flag := congrArg Status.rxValid
    (Station.ofWord_status (((Link.charges polls).run link).state.station side))
  rw [Link.arrived_lane_peer]
  exact flag

/-- With nothing on its way there is room. -/
theorem Clear.await_room (clear : Clear link) :
    await .left StatusWord.txFull false link = .ok (Link.charge.run link).state := by
  have room : shown .left StatusWord.txFull link (0 + 1) = false := by
    obtain ⟨isLoaded, outbound⟩ := (clear.charges 1).outbound
    rw [shown_txFull, outbound]
    rfl
  exact await_of_endsAt ⟨room, fun earlier isEarlier => absurd isEarlier (Nat.not_lt_zero earlier)⟩

/-- A poll shows the block if and only if it is due. -/
theorem Carries.shown_iff (carries : Carries readyAt link) (polls : Nat) :
    shown .right StatusWord.rxValid link polls = true ↔
      readyAt ≤ ((Link.charges polls).run link).state.time := by
  have outbound := (carries.charges polls).outbound
  rw [shown_rxValid, decide_eq_true_iff, List.length_pos_iff]
  change (((Link.charges polls).run link).state.lane .left).arrived ≠ [] ↔ _
  rw [outbound, ne_eq, Lane.arrived_flow_eq_nil_iff rfl rfl rfl, not_not]
  rfl

theorem Clear.isReady (clear : Clear link) : (link.station .left).IsReady := by
  obtain ⟨isLoaded, outbound⟩ := clear.outbound
  have ready : (link.lane .left).IsReady := by
    rw [outbound]
    exact ⟨rfl, Nat.succ_pos 3⟩
  exact ready

theorem Clear.load (clear : Clear link) :
    Carries (link.time.after link.config.linkLatency)
      ((Link.load .left data).run link).state := by
  obtain ⟨⟨isLoaded, outbound⟩, inbound⟩ := clear
  have ready := Clear.isReady ⟨⟨isLoaded, outbound⟩, inbound⟩
  constructor
  · rw [Link.lane_load_self_of_ready data ready, Link.time_load_of_ready data ready, outbound]
    rfl
  · have received := Link.lane_load_peer_of_ready data ready
    refine received.trans ?_
    change (link.lane .right).flow link.time = .idle
    rw [inbound]
    rfl

/-- The write of a block takes four accesses and puts it on its way. -/
theorem Clear.write (clear : Clear link) :
    let written := writeBlock .left data link
    let time := ((Link.charges 4).run link).state.time
    written.time = time ∧ written.config = link.config ∧
      Carries (time.after link.config.linkLatency) written := by
  dsimp only
  rw [writeBlock_eq, Link.run_writeBlock_of_ready data clear.isReady]
  dsimp only
  have clearLater := clear.charges 4
  have sameConfig := (Link.aside_law.charges 4 link).config
  generalize ((Link.charges 4).run link).state = charged at clearLater sameConfig ⊢
  have offered : Clear (charged.withStaged .left data) :=
    ⟨clearLater.outbound, clearLater.inbound⟩
  have ready := offered.isReady
  refine ⟨Link.time_load_of_ready data ready, ?_, ?_⟩
  · exact ((Link.aside_load_of_ready data ready).config).trans sameConfig
  · rw [← sameConfig]
    exact offered.load

/-- The wait for a block ends with the first poll at which it is due. -/
theorem Carries.await_block (carries : Carries readyAt link) {polls : Nat}
    (due : readyAt ≤ ((Link.charges (polls + 1)).run link).state.time)
    (early : ∀ earlier < polls,
      ¬ readyAt ≤ ((Link.charges (earlier + 1)).run link).state.time) :
    await .right StatusWord.rxValid true link =
      .ok ((Link.charges (polls + 1)).run link).state := by
  apply await_of_endsAt
  refine ⟨(carries.shown_iff (polls + 1)).mpr due, ?_⟩
  intro earlier isEarlier isShown
  exact early earlier isEarlier ((carries.shown_iff (earlier + 1)).mp isShown)

/-- The read of a block that has crossed takes four accesses and leaves nothing on its way. -/
theorem Carries.read (carries : Carries readyAt link) (due : readyAt ≤ link.time) :
    (readBlock .right link).1 = data ∧ Clear (readBlock .right link).2 ∧
      (readBlock .right link).2.time = ((Link.charges 4).run link).state.time ∧
      (readBlock .right link).2.config = link.config := by
  have peek_of_due {later : Link} (carried : Carries readyAt later)
      (crossed : readyAt ≤ later.time) : (later.station .right).peek = .ok data := by
    rw [Link.peek_eq_lane]
    change (later.lane .left).peek = .ok data
    rw [carried.outbound, flow_carrying_of_due crossed]
    rfl
  rw [readBlock_eq, Link.run_readBlock_of_ok (peek_of_due carries due)]
  dsimp only
  have carriesLater := carries.charges 4
  have dueLater := UInt64.le_trans due (Link.time_law.charges 4 link)
  have sameConfig := (Link.aside_law.charges 4 link).config
  generalize ((Link.charges 4).run link).state = charged at carriesLater dueLater sameConfig ⊢
  have shown := peek_of_due carriesLater dueLater
  refine ⟨rfl, ⟨⟨true, ?_⟩, ?_⟩, Link.time_read_of_ok shown, ?_⟩
  · have taken := Link.lane_read_peer_of_ok shown
    change ((Link.read .right).run charged).state.lane .left = _ at taken
    rw [taken]
    change (charged.lane .left).dropOldest.flow charged.time = _
    rw [carriesLater.outbound, flow_carrying_of_due dueLater]
    rfl
  · rw [Link.lane_read_self_of_ok shown, carriesLater.inbound]
    rfl
  · exact (Link.aside_read_of_ok shown).config.trans sameConfig

end Lanes

section Runs

variable {link : Link} {readyAt : Time}

/-- Whether time passes with the accesses to a link, or its blocks need none. -/
def Timely (config : Config) : Prop :=
  1 ≤ config.accessCycles.toNat ∨ config.linkLatency = 0

instance (config : Config) : Decidable (Timely config) :=
  inferInstanceAs (Decidable (_ ∨ _))

/-- Where time passes, some poll is the first at which a block is due. -/
theorem exists_first_due (timely : Timely link.config) {sentAt : Time}
    (notLater : sentAt ≤ link.time) :
    let due polls := sentAt.after link.config.linkLatency ≤
      ((Link.charges (polls + 1)).run link).state.time
    ∃ polls, due polls ∧ ∀ earlier < polls, ¬ due earlier := by
  intro due
  have someDue : ∃ polls, due polls := by
    rcases timely with costs | immediate
    · refine ⟨link.config.linkLatency.toNat, UInt64.le_iff_toNat_le.mpr ?_⟩
      have before := UInt64.le_iff_toNat_le.mp notLater
      have enough : link.config.linkLatency.toNat ≤
          (link.config.linkLatency.toNat + 1) * link.config.accessCycles.toNat :=
        Nat.le_trans (Nat.le_succ _) (Nat.le_mul_of_pos_right _ costs)
      rw [Link.toNat_time_charges, Time.toNat_after]
      omega
    · refine ⟨0, ?_⟩
      dsimp only [due]
      rw [immediate, Time.after_zero]
      exact UInt64.le_trans notLater (Link.time_law.charges 1 link)
  classical
  exact ⟨Nat.find someDue, Nat.find_spec someDue, fun _ => Nat.find_min someDue⟩

/-- Where time passes, a block that was sent is read as it was sent. -/
theorem Carries.receive (timely : Timely link.config) {sentAt : Time}
    (carries : Carries (sentAt.after link.config.linkLatency) link)
    (notLater : sentAt ≤ link.time) :
    ∃ crossed, await .right StatusWord.rxValid true link = .ok crossed ∧
      (readBlock .right crossed).1 = data ∧ Clear (readBlock .right crossed).2 ∧
      (readBlock .right crossed).2.config = link.config := by
  obtain ⟨polls, due, early⟩ := exists_first_due timely notLater
  obtain ⟨received, clear, -, config⟩ := (carries.charges (polls + 1)).read due
  exact ⟨_, carries.await_block due early, received, clear,
    config.trans (Link.aside_law.charges (polls + 1) link).config⟩

theorem Clear.exchange (clear : Clear link) (timely : Timely link.config) :
    ∃ measured last, exchange link = .ok (measured, last) ∧ measured.received = data ∧
      Clear last ∧ last.config = link.config := by
  have sameConfig := (Link.aside_law.charge link).config
  obtain ⟨time, config, carries⟩ := clear.charge.write
  rw [sameConfig] at config carries
  have timelyLater : Timely (writeBlock .left data (Link.charge.run link).state).config := by
    rw [config]
    exact timely
  have notLater : _ ≤ (writeBlock .left data (Link.charge.run link).state).time :=
    UInt64.le_of_eq time.symm
  rw [← config] at carries
  obtain ⟨crossed, awaited, received, clearLast, configLast⟩ :=
    carries.receive timelyLater notLater
  have outcome : Benchmark.exchange link =
      .ok (⟨(readBlock .right crossed).2.time - link.time, (readBlock .right crossed).1⟩,
        (readBlock .right crossed).2) := by
    rw [Benchmark.exchange, clear.await_room]
    dsimp only [bind, Except.bind]
    rw [awaited]
    rfl
  exact ⟨_, _, outcome, received, clearLast, configLast.trans config⟩

/-- Where time passes, any number of exchanges comes to its end with every block intact. -/
theorem Clear.exchanges (clear : Clear link) (timely : Timely link.config) (rounds : Nat)
    (total : Time) (intact : Bool) :
    ∃ sum last, exchanges rounds total intact link = .ok (sum, intact, last) ∧
      Clear last ∧ last.config = link.config := by
  induction rounds generalizing link total with
  | zero => exact ⟨total, link, rfl, clear, rfl⟩
  | succ rounds inductionHypothesis =>
    obtain ⟨measured, middle, outcome, received, clearMiddle, config⟩ := clear.exchange timely
    have timelyMiddle : Timely middle.config := by
      rw [config]
      exact timely
    obtain ⟨sum, last, rest, clearLast, configLast⟩ :=
      inductionHypothesis clearMiddle timelyMiddle (total + measured.cycles)
    refine ⟨sum, last, ?_, clearLast, configLast.trans config⟩
    rw [Benchmark.exchanges, outcome]
    dsimp only
    rw [decide_eq_true received, Bool.and_true, rest]

/-- The message is opened by one read and one write of CTRL. -/
theorem start_eq (valid : (link.station .left).Watermarked) :
    start link = .ok ((Link.openMessage .left).run ((Link.charges 2).run link).state).state := by
  have isPulse : ControlWord.txTrigger ∈ ControlWord.pulses := by decide
  have action : Link.pulseAction .left ControlWord.txTrigger = Link.openMessage .left := by
    rw [Link.pulseAction, if_neg (by decide), if_pos rfl]
  have updated := Link.run_driverPulse isPulse valid
  rw [action, Driver.updateControl, Program.run_bind, Program.run_readWord, Link.read_bus,
    Link.readRegister_control, Step.run_bind] at updated
  dsimp only at updated
  rw [start]
  cases shown : ((Link.readControl .left).run link).value with
  | ok word =>
    rw [shown] at updated
    dsimp only at updated
    rw [Program.run_writeWord, Link.write_bus, Link.writeRegister_control, Step.run_map] at updated
    exact congrArg (fun outcome => Except.ok outcome.state) updated
  | error fault =>
    rw [shown] at updated
    cases congrArg Outcome.value updated

/-- The settings of the link that is measured. -/
def Setup.config (setup : Setup) : Config :=
  { linkLatency := setup.latency, accessCycles := setup.accessCycles }

theorem Setup.accepted (setup : Setup) : setup.config.Accepted :=
  have initial : WatermarkValid 1 := by decide
  ⟨initial, initial⟩

variable (setup : Setup)

/-- The link once its message is open. -/
def opened : Link :=
  ((Link.openMessage .left).run ((Link.charges 2).run (.idle setup.config 0)).state).state

theorem config_opened : (opened setup).config = setup.config :=
  (Link.aside_openMessage _ .left).config.trans (Link.aside_law.charges 2 _).config

theorem clear_opened : Clear (opened setup) := by
  have idle (sender : Side) :
      ((Link.charges 2).run (.idle setup.config 0)).state.lane sender = .idle := by
    rw [Link.lane_charges_succ, Link.lane_idle]
    rfl
  constructor
  · refine ⟨false, ?_⟩
    rw [opened, Link.lane_openMessage_self, idle]
    rfl
  · exact (Link.lane_openMessage_peer _ .left).trans (idle .right)

/-- The link when its first flag has been read. -/
def probed : Link := (Link.charge.run (opened setup)).state

/-- The link when its first block is on its way. -/
def launched : Link := writeBlock .left data (probed setup)

/-- The link when the first block has been looked for. -/
def polled : Link := (Link.charge.run (launched setup)).state

/-- On a link that is created and opened, a benchmark is four measurements and its exchanges. -/
theorem run_eq :
    run setup = (do
      let crossed ← await .right StatusWord.rxValid true (polled setup)
      let (received, emptied) := readBlock .right crossed
      let (total, intact, last) ← exchanges setup.rounds.toNat 0 (received = data) emptied
      return {
        readFull := (probed setup).time - (opened setup).time
        writeBlock := (launched setup).time - (probed setup).time
        readValid := (polled setup).time - (launched setup).time
        readBlock := emptied.time - crossed.time
        exchange := total / max setup.rounds 1
        intact
        link := last }) := by
  have created : Link.create setup.config = .ok (.idle setup.config 0) := if_pos setup.accepted
  have begun := start_eq ((Link.Watermarked.idle setup.accepted 0).2 .left)
  have config : ({ linkLatency := setup.latency, accessCycles := setup.accessCycles } : Config) =
      setup.config := rfl
  rw [run, config, created]
  dsimp only [Except.mapError, bind, Except.bind]
  rw [begun]
  simp only [readFlag, state_readStatus, polled, launched, probed, opened]

theorem clear_probed : Clear (probed setup) := by
  rw [probed]
  exact (clear_opened setup).charge

theorem config_probed : (probed setup).config = setup.config := by
  rw [probed]
  exact (Link.aside_law.charge _).config.trans (config_opened setup)

theorem config_launched : (launched setup).config = setup.config := by
  rw [launched]
  exact (clear_probed setup).write.2.1.trans (config_probed setup)

theorem config_polled : (polled setup).config = setup.config := by
  rw [polled]
  exact (Link.aside_law.charge _).config.trans (config_launched setup)

theorem carries_polled :
    Carries ((launched setup).time.after setup.latency) (polled setup) := by
  obtain ⟨time, -, carries⟩ := (clear_probed setup).write
  rw [← time, config_probed] at carries
  rw [polled, launched]
  exact carries.charge

/-- Where time passes, the benchmark comes to its end. -/
theorem exists_report (timely : Timely setup.config) :
    ∃ report, run setup = .ok report ∧ report.intact = true := by
  have config := config_polled setup
  have timelyPolled : Timely (polled setup).config := config.symm ▸ timely
  have carries : Carries ((launched setup).time.after (polled setup).config.linkLatency)
      (polled setup) := by
    rw [config]
    exact carries_polled setup
  have notLater : (launched setup).time ≤ (polled setup).time := by
    rw [polled]
    exact Link.time_law.charge _
  obtain ⟨crossed, awaited, received, clear, configRead⟩ := carries.receive timelyPolled notLater
  have timelyRead : Timely (readBlock .right crossed).2.config := configRead.symm ▸ timelyPolled
  obtain ⟨total, last, outcome, -⟩ := clear.exchanges timelyRead setup.rounds.toNat 0 true
  rw [run_eq, awaited]
  dsimp only [bind, Except.bind]
  rw [decide_eq_true received, outcome]
  exact ⟨_, rfl, rfl⟩

theorem toNat_time_charge (link : Link) :
    (Link.charge.run link).state.time.toNat =
      min (link.time.toNat + link.config.accessCycles.toNat) Time.latest := by
  rw [Link.run_charge]
  exact Time.toNat_after link.time link.config.accessCycles

theorem toNat_time_launched :
    (launched setup).time.toNat = min (7 * setup.accessCycles.toNat) Time.latest := by
  have unmoved (link : Link) : ((Link.openMessage .left).run link).state.time = link.time := rfl
  have cost : setup.config.accessCycles = setup.accessCycles := rfl
  have start : (opened setup).time.toNat = min (2 * setup.accessCycles.toNat) Time.latest := by
    rw [opened, unmoved, Link.toNat_time_charges, Link.idle, UInt64.toNat_zero, Nat.zero_add, cost]
  rw [launched, (clear_probed setup).write.1, Link.toNat_time_charges, config_probed, probed,
    toNat_time_charge, start, config_opened, cost]
  omega

/-- On a clock that no access moves, a block that needs time never crosses. -/
theorem never_shown_of_free (free : setup.accessCycles = 0) (late : setup.latency ≠ 0)
    (polls : Nat) : shown .right StatusWord.rxValid (polled setup) polls = false := by
  have isFree : setup.accessCycles.toNat = 0 := by rw [free]; rfl
  have isLate : setup.latency.toNat ≠ 0 := fun isZero => late (UInt64.toNat_inj.mp isZero)
  have cost : setup.config.accessCycles = setup.accessCycles := rfl
  rw [← Bool.not_eq_true, (carries_polled setup).shown_iff, UInt64.le_iff_toNat_le,
    Time.toNat_after, Link.toNat_time_charges, toNat_time_launched, config_polled, polled,
    toNat_time_charge, toNat_time_launched, config_launched, cost, isFree]
  have bound := setup.latency.toNat_lt
  have latest : Time.latest = 2 ^ 64 - 1 := rfl
  omega

theorem run_of_free (free : setup.accessCycles = 0) (late : setup.latency ≠ 0) :
    run setup = .error .stalled := by
  have forever : await .right StatusWord.rxValid true (polled setup) = .error .stalled := by
    apply await_of_never
    intro polls
    rw [never_shown_of_free setup free late]
    exact Bool.false_ne_true
  rw [run_eq, forever]
  rfl

/-- The benchmark waits without a budget, for what the first poll to show it ends. So it comes to
its end, with every block intact, if its accesses take time or its blocks need none. Otherwise its
first block never crosses, and the wait for it goes on for ever. -/
theorem finishes_if_timely :
    (∀ side field expected link last,
      await side field expected link = .ok last ↔
        ∃ polls, EndsAt side field link expected polls ∧
          last = ((Link.charges (polls + 1)).run link).state) ∧
    (∀ side field expected link,
      await side field expected link = .error .stalled ↔
        ∀ polls, shown side field link (polls + 1) ≠ expected) ∧
    if Timely setup.config then ∃ report, run setup = .ok report ∧ report.intact = true
    else run setup = .error .stalled ∧
      ∀ polls, shown .right StatusWord.rxValid (polled setup) polls = false := by
  refine ⟨fun side field expected link last => await_ok_iff side field link expected last,
    fun side field expected link => await_stalled_iff side field link expected, ?_⟩
  split
  next timely => exact exists_report setup timely
  next untimely =>
    obtain ⟨costless, isLate⟩ := not_or.mp untimely
    have free : setup.accessCycles = 0 :=
      UInt64.toNat_inj.mp (Nat.lt_one_iff.mp (Nat.not_le.mp costless))
    exact ⟨run_of_free setup free isLate, never_shown_of_free setup free isLate⟩

/-- Accesses that take no time never bring about the cycle that the block needs. -/
theorem stalls_with_free_accesses :
    let setup : Setup := { latency := 1, accessCycles := 0 }
    ¬ (∃ report, run setup = .ok report) ∧
      ∀ polls, shown .right StatusWord.rxValid (polled setup) polls = false := by
  intro setup
  have free : setup.accessCycles = 0 := rfl
  have isLate : setup.latency ≠ 0 := by decide
  refine ⟨?_, never_shown_of_free setup free isLate⟩
  rintro ⟨report, finished⟩
  rw [run_of_free setup free isLate] at finished
  cases finished

end Runs

end BlockLink.Benchmark
