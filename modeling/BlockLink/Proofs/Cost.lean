import BlockLink.Proofs.Accounting
import Mathlib.Order.Bounds.Defs

/-!
What the benchmark measures.

The clock of a benchmark moves with its accesses and with nothing else, so to know what a part of
it costs is to count its accesses. Only the waits for a block leave something to count: a block is
seen at the first poll at which the latency has passed. Where the clock comes to its end a block
may be due early, but then no further access moves the clock either.
-/

namespace BlockLink

namespace Link

/-- Whether between two links the time of a number of accesses has passed. -/
structure Costs (link : Link) (accesses : Nat) (last : Link) : Prop where
  time : last.time = ((charges accesses).run link).state.time
  config : last.config = link.config

namespace Costs

variable {link middle last : Link} {first second accesses : Nat}

theorem charges (link : Link) (accesses : Nat) :
    link.Costs accesses ((Link.charges accesses).run link).state :=
  ⟨rfl, (aside_law.charges accesses link).config⟩

theorem refl (link : Link) : link.Costs 0 link :=
  charges link 0

theorem charge (link : Link) : link.Costs 1 (Link.charge.run link).state := by
  have once := charges link 1
  rw [state_charges_last] at once
  exact once

theorem toNat_time (costs : link.Costs accesses last) :
    last.time.toNat =
      min (link.time.toNat + accesses * link.config.accessCycles.toNat) Time.latest := by
  rw [costs.time, toNat_time_charges]

theorem of_toNat_time
    (time : last.time.toNat =
      min (link.time.toNat + accesses * link.config.accessCycles.toNat) Time.latest)
    (config : last.config = link.config) : link.Costs accesses last := by
  refine ⟨UInt64.toNat_inj.mp ?_, config⟩
  rw [time, toNat_time_charges]

theorem trans (before : link.Costs first middle) (after : middle.Costs second last) :
    link.Costs (first + second) last := by
  apply of_toNat_time
  · rw [after.toNat_time, before.toNat_time, before.config, Nat.add_mul]
    omega
  · exact after.config.trans before.config

/-- As long as the clock does not come to its end, it shows what an operation costs. -/
theorem toNat_duration (costs : link.Costs accesses last)
    (inRange : link.time.toNat + accesses * link.config.accessCycles.toNat ≤ Time.latest) :
    (last.time - link.time).toNat = accesses * link.config.accessCycles.toNat := by
  have time := costs.toNat_time
  rw [Nat.min_eq_left inRange] at time
  rw [UInt64.toNat_sub_of_le, time, Nat.add_sub_cancel_left]
  rw [UInt64.le_iff_toNat_le, time]
  exact Nat.le_add_right ..

/-- Where there is time for the whole, there is time for each part. -/
theorem inRange_of_le {total : Nat} (before : link.Costs first middle)
    (within : first + second ≤ total)
    (inRange : link.time.toNat + total * link.config.accessCycles.toNat ≤ Time.latest) :
    middle.time.toNat + second * middle.config.accessCycles.toNat ≤ Time.latest := by
  have passed := Nat.mul_le_mul_right link.config.accessCycles.toNat within
  rw [Nat.add_mul] at passed
  rw [before.toNat_time, before.config]
  omega

end Costs

/-- Whether nothing waits on either side, to be sent or to be read. -/
def IsEmpty (link : Link) : Prop :=
  ∀ side, (link.station side).tx.entries = [] ∧ (link.station side).rx.entries = []

end Link

/-- The polls that it takes until the latency has passed. There is always one. -/
def Config.polls (config : Config) : Nat :=
  max 1 (config.linkLatency.toNat ⌈/⌉ config.accessCycles.toNat)

namespace Benchmark

variable {link last : Link}

section Waiting

variable {config : Config} (timely : Timely config)
include timely

theorem latency_le_polls : config.linkLatency.toNat ≤ config.polls * config.accessCycles.toNat := by
  rcases timely with costs | immediate
  · have enough := (ceilDiv_le_iff_le_mul costs).mp (Nat.le_max_right 1 _ :
      config.linkLatency.toNat ⌈/⌉ config.accessCycles.toNat ≤ config.polls)
    rwa [Nat.mul_comm]
  · simp [immediate]

/-- Polls that are not enough leave the latency unfinished. -/
theorem polls_le {polls : Nat} (positive : 1 ≤ polls)
    (enough : config.linkLatency.toNat ≤ polls * config.accessCycles.toNat) :
    config.polls ≤ polls := by
  apply Nat.max_le.mpr ⟨positive, ?_⟩
  rcases timely with costs | immediate
  · rwa [ceilDiv_le_iff_le_mul costs, Nat.mul_comm]
  · simp [immediate]

theorem isLeast_polls :
    IsLeast {polls | 1 ≤ polls ∧ config.linkLatency.toNat ≤ polls * config.accessCycles.toNat}
      config.polls :=
  ⟨⟨Nat.le_max_left .., latency_le_polls timely⟩, fun _ waits => polls_le timely waits.1 waits.2⟩

/-- On a clock that comes to its end, the first poll that is late enough comes at the time at which
it would come if it had to wait for the whole latency. -/
theorem time_first_due {start before polls : Nat}
    (due : min (start + config.linkLatency.toNat) Time.latest ≤
      min (start + (before + (polls + 1)) * config.accessCycles.toNat) Time.latest)
    (early : ∀ earlier < polls, ¬ min (start + config.linkLatency.toNat) Time.latest ≤
      min (start + (before + (earlier + 1)) * config.accessCycles.toNat) Time.latest) :
    min (start + (before + (polls + 1)) * config.accessCycles.toNat) Time.latest =
      min (start + max (before + 1) config.polls * config.accessCycles.toNat) Time.latest := by
  have enough := latency_le_polls timely
  have notMore : before + (polls + 1) ≤ max (before + 1) config.polls := by
    cases polls with
    | zero => exact Nat.le_max_left ..
    | succ polls =>
      have missed := early polls (Nat.lt_succ_self polls)
      by_contra more
      have reached : config.polls ≤ before + (polls + 1) := by omega
      have passed := Nat.mul_le_mul_right config.accessCycles.toNat reached
      omega
  have later := Nat.mul_le_mul_right config.accessCycles.toNat notMore
  rcases Nat.eq_or_lt_of_le notMore with same | fewer
  · rw [same]
  -- Fewer polls do only where the end of the clock has cut the latency short.
  · have short : ¬ config.linkLatency.toNat ≤
        (before + (polls + 1)) * config.accessCycles.toNat := by
      intro waits
      have least := polls_le timely (by omega) waits
      omega
    omega

/-- The wait for a block ends as many accesses after it was sent as the latency asks for, or with
the first poll if that comes later. -/
theorem Carries.await_costs {origin : Link} {before : Nat} (sameConfig : origin.config = config)
    (passed : origin.Costs before link)
    (carries : Carries (origin.time.after config.linkLatency) link) :
    ∃ crossed, await .right StatusWord.rxValid true link = .ok crossed ∧
      Carries (origin.time.after config.linkLatency) crossed ∧
      origin.time.after config.linkLatency ≤ crossed.time ∧
      origin.Costs (max (before + 1) config.polls) crossed := by
  subst sameConfig
  have timelyLink : Timely link.config := passed.config.symm ▸ timely
  have notLater : origin.time ≤ link.time := by
    rw [passed.time]
    exact Link.time_law.charges before origin
  obtain ⟨polls, due, early⟩ := exists_first_due timelyLink notLater
  rw [passed.config] at due early
  refine ⟨_, carries.await_block due early, carries.charges (polls + 1), due, ?_⟩
  have charged (more : Nat) := passed.trans (.charges link more)
  simp only [UInt64.le_iff_toNat_le, Time.toNat_after, (charged _).toNat_time] at due early
  apply Link.Costs.of_toNat_time
  · rw [(charged _).toNat_time, time_first_due timely due early]
  · exact (charged (polls + 1)).config

end Waiting

section Exchanges

theorem Clear.isEmpty (clear : Clear link) : link.IsEmpty := by
  obtain ⟨⟨isLoaded, outbound⟩, inbound⟩ := clear
  intro side
  cases side with
  | left => exact ⟨congrArg Lane.waiting outbound, congrArg Lane.arrived inbound⟩
  | right => exact ⟨congrArg Lane.waiting inbound, congrArg Lane.arrived outbound⟩

/-- A look at the room, four writes, the polls, and four reads. -/
theorem Clear.exchange_costs (clear : Clear link) (timely : Timely link.config) :
    ∃ last, Benchmark.exchange link = .ok (⟨last.time - link.time, data⟩, last) ∧ Clear last ∧
      link.Costs (9 + link.config.polls) last := by
  have looked : link.Costs 1 (Link.charge.run link).state := .charge link
  obtain ⟨time, config, carries⟩ := clear.charge.write
  rw [← time] at carries
  have written := looked.trans ⟨time, config⟩
  have timelyWritten : Timely (writeBlock .left data (Link.charge.run link).state).config :=
    written.config.symm ▸ timely
  rw [← config] at carries
  obtain ⟨crossed, awaited, carried, due, waited⟩ :=
    carries.await_costs timelyWritten rfl (.refl _)
  obtain ⟨received, clearLast, timeRead, configRead⟩ := carried.read due
  have all := (written.trans waited).trans ⟨timeRead, configRead⟩
  have least : 1 ≤ link.config.polls := Nat.le_max_left ..
  have number : 1 + 4 + max (0 + 1) link.config.polls + 4 = 9 + link.config.polls := by omega
  rw [written.config, number] at all
  refine ⟨_, ?_, clearLast, all⟩
  rw [exchange_of_ok clear.await_room awaited, received]

/-- One of the exchanges of a benchmark. -/
structure Round where
  before : Link
  measured : Exchange
  after : Link

/-- Exchanges one after another, from one link to another. -/
inductive Rounds : Link → List Round → Link → Prop where
  | none {link : Link} : Rounds link [] link
  | next {link middle last : Link} {measured : Exchange} {rest : List Round} :
      exchange link = .ok (measured, middle) → Rounds middle rest last →
      Rounds link (⟨link, measured, middle⟩ :: rest) last

/-- A benchmark adds up the durations of its rounds. -/
theorem Rounds.exchanges {rounds : List Round} (course : Rounds link rounds last)
    (received : ∀ round ∈ rounds, round.measured.received = data) (total : Time) (intact : Bool) :
    ∃ sum, exchanges rounds.length total intact link = .ok (sum, intact, last) := by
  induction course generalizing total with
  | none => exact ⟨total, rfl⟩
  | @next link middle last measured rest done _ inductionHypothesis =>
    rw [List.forall_mem_cons] at received
    obtain ⟨sum, later⟩ := inductionHypothesis received.2 (total + measured.cycles)
    refine ⟨sum, ?_⟩
    rw [List.length_cons, Benchmark.exchanges, done]
    dsimp only
    rw [decide_eq_true received.1, Bool.and_true, later]

/-- What is known of a round that takes so many accesses. -/
structure Round.Regular (accesses : Nat) (round : Round) : Prop where
  received : round.measured.received = data
  isEmpty : round.after.IsEmpty
  cycles : round.measured.cycles = round.after.time - round.before.time
  costs : round.before.Costs accesses round.after

/-- Each exchange leaves the link as ready for another one as it was. -/
theorem Clear.rounds (clear : Clear link) (timely : Timely link.config) (count : Nat) :
    ∃ rounds last, Rounds link rounds last ∧ rounds.length = count ∧
      (∀ round ∈ rounds, round.Regular (9 + link.config.polls)) ∧
      link.Costs (count * (9 + link.config.polls)) last := by
  induction count generalizing link with
  | zero =>
    refine ⟨[], link, .none, rfl, List.forall_mem_nil _, ?_⟩
    rw [Nat.zero_mul]
    exact .refl link
  | succ count inductionHypothesis =>
    obtain ⟨middle, done, clearMiddle, costs⟩ := clear.exchange_costs timely
    have timelyMiddle : Timely middle.config := costs.config.symm ▸ timely
    obtain ⟨rounds, last, course, length, regular, costsRest⟩ :=
      inductionHypothesis clearMiddle timelyMiddle
    rw [costs.config] at regular costsRest
    refine ⟨_ :: rounds, last, .next done course, congrArg Nat.succ length, ?_, ?_⟩
    · rw [List.forall_mem_cons]
      exact ⟨⟨rfl, clearMiddle.isEmpty, rfl, costs⟩, regular⟩
    · rw [Nat.succ_mul, Nat.add_comm]
      exact costs.trans costsRest

/-- As long as the clock does not come to its end, all rounds take as long. -/
theorem Rounds.toNat_cycles {accesses : Nat} {rounds : List Round}
    (course : Rounds link rounds last) (regular : ∀ round ∈ rounds, round.Regular accesses)
    (inRange : link.time.toNat + rounds.length * accesses * link.config.accessCycles.toNat ≤
      Time.latest) :
    ∀ round ∈ rounds,
      round.measured.cycles.toNat = accesses * link.config.accessCycles.toNat := by
  induction course with
  | none => exact List.forall_mem_nil _
  | @next link middle last measured rest done _ inductionHypothesis =>
    rw [List.forall_mem_cons] at regular ⊢
    obtain ⟨first, regularRest⟩ := regular
    rw [List.length_cons, Nat.succ_mul, Nat.add_mul] at inRange
    have inRangeFirst : link.time.toNat + accesses * link.config.accessCycles.toNat ≤
      Time.latest := by omega
    have time := first.costs.toNat_time
    rw [Nat.min_eq_left inRangeFirst] at time
    have config : middle.config = link.config := first.costs.config
    constructor
    · rw [first.cycles, first.costs.toNat_duration inRangeFirst]
    · rw [config] at inductionHypothesis
      apply inductionHypothesis regularRest
      rw [time]
      omega

end Exchanges

theorem toNat_mean {total : Time} {count : UInt64} {each : Nat}
    (sum : total.toNat = count.toNat * each) :
    (total / max count 1).toNat = if count = 0 then 0 else each := by
  rw [max_one_eq, UInt64.toNat_div, sum]
  split
  next none => rw [none, UInt64.toNat_zero, Nat.zero_mul, Nat.zero_div]
  next some =>
    have positive : 0 < count.toNat :=
      Nat.pos_of_ne_zero fun isZero => some (UInt64.toNat_inj.mp isZero)
    rw [Nat.mul_div_cancel_left each positive]

section Stages

variable (setup : Setup)

/-- The accesses of a whole benchmark. Its first block is looked for twice at least. -/
def Setup.accesses : Nat :=
  11 + max 2 setup.config.polls + setup.rounds.toNat * (9 + setup.config.polls)

theorem costs_opened : (Link.idle setup.config 0).Costs 2 (opened setup) :=
  ⟨(Link.Costs.charges (.idle setup.config 0) 2).time, config_opened setup⟩

theorem costs_probed : (opened setup).Costs 1 (probed setup) := by
  rw [probed]
  exact .charge _

theorem costs_launched : (probed setup).Costs 4 (launched setup) := by
  rw [launched]
  exact ⟨(clear_probed setup).write.1, (clear_probed setup).write.2.1⟩

theorem costs_polled : (launched setup).Costs 1 (polled setup) := by
  rw [polled]
  exact .charge _

/-- A benchmark that comes to its end, from the link on which its first block is seen on. -/
structure Course (crossed : Link) (rounds : List Round) (last : Link) : Prop where
  awaited : await .right StatusWord.rxValid true (polled setup) = .ok crossed
  received : (readBlock .right crossed).1 = data
  exchanged : Rounds (readBlock .right crossed).2 rounds last
  length : rounds.length = setup.rounds.toNat
  regular : ∀ round ∈ rounds, round.Regular (9 + setup.config.polls)
  costsAwait : (Link.idle setup.config 0).Costs (7 + max 2 setup.config.polls) crossed
  costsRead : crossed.Costs 4 (readBlock .right crossed).2
  costsRounds :
    (readBlock .right crossed).2.Costs (setup.rounds.toNat * (9 + setup.config.polls)) last

theorem exists_course (timely : Timely setup.config) :
    ∃ crossed rounds last, Course setup crossed rounds last := by
  have carries : Carries ((launched setup).time.after setup.config.linkLatency) (polled setup) :=
    carries_polled setup
  obtain ⟨crossed, awaited, carried, due, waited⟩ :=
    carries.await_costs timely (config_launched setup) (costs_polled setup)
  obtain ⟨received, clear, time, config⟩ := carried.read due
  have costsAwait := (((costs_opened setup).trans (costs_probed setup)).trans
    (costs_launched setup)).trans waited
  have config : (readBlock .right crossed).2.config = setup.config :=
    config.trans costsAwait.config
  have timelyRead : Timely (readBlock .right crossed).2.config := config.symm ▸ timely
  obtain ⟨rounds, last, exchanged, length, regular, costsRounds⟩ :=
    clear.rounds timelyRead setup.rounds.toNat
  rw [config] at regular costsRounds
  exact ⟨crossed, rounds, last, awaited, received, exchanged, length, regular, costsAwait,
    ⟨time, config.trans costsAwait.config.symm⟩, costsRounds⟩

theorem inTime (inRange : setup.accesses * setup.accessCycles.toNat ≤ Time.latest) :
    (Link.idle setup.config 0).time.toNat +
      setup.accesses * (Link.idle setup.config 0).config.accessCycles.toNat ≤ Time.latest := by
  have begun : (Link.idle setup.config 0).time.toNat = 0 := rfl
  rw [begun, Nat.zero_add]
  exact inRange

namespace Course

variable {setup} {crossed : Link} {rounds : List Round} (course : Course setup crossed rounds last)
include course

/-- A benchmark shows what lies between its readings of the clock. -/
theorem exists_run :
    ∃ sum,
      exchanges setup.rounds.toNat 0 true (readBlock .right crossed).2 = .ok (sum, true, last) ∧
      run setup = .ok {
        readFull := (probed setup).time - (opened setup).time
        writeBlock := (launched setup).time - (probed setup).time
        readValid := (polled setup).time - (launched setup).time
        readBlock := (readBlock .right crossed).2.time - crossed.time
        exchange := sum / max setup.rounds 1
        intact := true
        link := last } := by
  obtain ⟨sum, done⟩ :=
    course.exchanged.exchanges (fun round member => (course.regular round member).received) 0 true
  rw [course.length] at done
  refine ⟨sum, done, ?_⟩
  rw [run_eq, course.awaited]
  dsimp only [bind, Except.bind]
  rw [decide_eq_true course.received, done]
  rfl

theorem costs : (Link.idle setup.config 0).Costs setup.accesses last := by
  have all := (course.costsAwait.trans course.costsRead).trans course.costsRounds
  have number : 7 + max 2 setup.config.polls + 4 +
      setup.rounds.toNat * (9 + setup.config.polls) = setup.accesses := by
    unfold Setup.accesses
    omega
  rwa [number] at all

section InRange

variable (inRange : setup.accesses * setup.accessCycles.toNat ≤ Time.latest)
include inRange

/-- As long as the clock does not come to its end, each part of a benchmark takes the time of its
accesses. -/
theorem durations :
    ((probed setup).time - (opened setup).time).toNat = 1 * setup.accessCycles.toNat ∧
      ((launched setup).time - (probed setup).time).toNat = 4 * setup.accessCycles.toNat ∧
      ((polled setup).time - (launched setup).time).toNat = 1 * setup.accessCycles.toNat ∧
      ((readBlock .right crossed).2.time - crossed.time).toNat =
        4 * setup.accessCycles.toNat := by
  have untilProbed := (costs_opened setup).trans (costs_probed setup)
  have untilLaunched := untilProbed.trans (costs_launched setup)
  have inTime {accesses more : Nat} {middle : Link}
      (before : (Link.idle setup.config 0).Costs accesses middle)
      (within : accesses + more ≤ setup.accesses) :=
    before.inRange_of_le within (inTime setup inRange)
  have enough : 11 + max 2 setup.config.polls ≤ setup.accesses := Nat.le_add_right ..
  refine ⟨?_, ?_, ?_, ?_⟩
  · rw [(costs_probed setup).toNat_duration (inTime (costs_opened setup) (by omega)),
      config_opened]
    rfl
  · rw [(costs_launched setup).toNat_duration (inTime untilProbed (by omega)), config_probed]
    rfl
  · rw [(costs_polled setup).toNat_duration (inTime untilLaunched (by omega)), config_launched]
    rfl
  · rw [course.costsRead.toNat_duration (inTime course.costsAwait (by omega)),
      course.costsAwait.config]
    rfl

theorem inTime_rounds :
    (readBlock .right crossed).2.time.toNat +
        setup.rounds.toNat * (9 + setup.config.polls) *
          (readBlock .right crossed).2.config.accessCycles.toNat ≤ Time.latest := by
  apply (course.costsAwait.trans course.costsRead).inRange_of_le _ (inTime setup inRange)
  unfold Setup.accesses
  omega

theorem toNat_cycles :
    ∀ round ∈ rounds,
      round.measured.cycles.toNat = (9 + setup.config.polls) * setup.accessCycles.toNat := by
  have config := (course.costsAwait.trans course.costsRead).config
  have inTime := course.inTime_rounds inRange
  rw [← course.length] at inTime
  have cycles := course.exchanged.toNat_cycles course.regular inTime
  rw [config] at cycles
  exact cycles

theorem toNat_sum {sum : Time}
    (done : exchanges setup.rounds.toNat 0 true (readBlock .right crossed).2 =
      .ok (sum, true, last)) :
    sum.toNat =
      setup.rounds.toNat * ((9 + setup.config.polls) * setup.accessCycles.toNat) := by
  have config := (course.costsAwait.trans course.costsRead).config
  have passed := course.costsRounds.toNat_duration (course.inTime_rounds inRange)
  have notAhead : (0 : Time) ≤ (readBlock .right crossed).2.time :=
    UInt64.le_iff_toNat_le.mpr (Nat.zero_le _)
  obtain ⟨later, summed⟩ := toNat_exchanges notAhead done
  rw [UInt64.toNat_zero, Nat.zero_add] at summed
  rw [UInt64.toNat_sub_of_le _ _ later, ← summed, Nat.add_sub_cancel, config, Nat.mul_assoc]
    at passed
  exact passed

end InRange

end Course

/-- Where time passes, the benchmark comes to its end with every block intact and nothing left on
the link after any round, and what its clock shows then is the time of its accesses. Unless this
is the end of the clock, what it measures is exact: an access, the four accesses of a block, and
for an exchange nine accesses and as many polls as the latency asks for, one at least. -/
theorem measures_accesses (timely : Timely setup.config) :
    let cost := setup.accessCycles.toNat
    let polls := setup.config.polls
    IsLeast {number | 1 ≤ number ∧ setup.latency.toNat ≤ number * cost} polls ∧
    ∃ report crossed rounds,
      run setup = .ok report ∧ report.intact = true ∧
      await .right StatusWord.rxValid true (polled setup) = .ok crossed ∧
      (readBlock .right crossed).1 = data ∧
      Rounds (readBlock .right crossed).2 rounds report.link ∧
      rounds.length = setup.rounds.toNat ∧
      (∀ round ∈ rounds, round.measured.received = data ∧ round.after.IsEmpty) ∧
      report.link.time.toNat = min (setup.accesses * cost) Time.latest ∧
      (setup.accesses * cost ≤ Time.latest →
        report.readFull.toNat = cost ∧ report.writeBlock.toNat = 4 * cost ∧
        report.readValid.toNat = cost ∧ report.readBlock.toNat = 4 * cost ∧
        report.exchange.toNat = (if setup.rounds = 0 then 0 else 9 * cost + polls * cost) ∧
        ∀ round ∈ rounds, round.measured.cycles.toNat = 9 * cost + polls * cost) := by
  intro cost polls
  obtain ⟨crossed, rounds, last, course⟩ := exists_course setup timely
  obtain ⟨sum, done, finished⟩ := course.exists_run
  refine ⟨isLeast_polls timely, _, crossed, rounds, finished, rfl, course.awaited,
    course.received, course.exchanged, course.length, ?_, ?_, fun inRange => ?_⟩
  · exact fun round member =>
      ⟨(course.regular round member).received, (course.regular round member).isEmpty⟩
  · have begun : (Link.idle setup.config 0).time.toNat = 0 := rfl
    rw [course.costs.toNat_time, begun, Nat.zero_add]
    rfl
  · obtain ⟨readFull, write, readValid, read⟩ := course.durations inRange
    have mean := toNat_mean (course.toNat_sum inRange done)
    have cycles := course.toNat_cycles inRange
    rw [Nat.one_mul] at readFull readValid
    rw [Nat.add_mul] at mean cycles
    exact ⟨readFull, write, readValid, read, mean, cycles⟩

/-- A latency of ten cycles takes four polls of three cycles each. -/
theorem measures_accesses_of_five_rounds :
    let setup : Setup := { latency := 10, accessCycles := 3, rounds := 5 }
    Timely setup.config ∧ setup.config.polls = 4 ∧
    setup.accesses * setup.accessCycles.toNat = 240 ∧
    ∃ report, run setup = .ok report ∧ report.intact = true ∧ report.link.time.toNat = 240 ∧
      report.readFull.toNat = 3 ∧ report.writeBlock.toNat = 12 ∧ report.readValid.toNat = 3 ∧
      report.readBlock.toNat = 12 ∧ report.exchange.toNat = 39 := by
  intro setup
  have timely : Timely setup.config := by decide
  have total : setup.accesses * setup.accessCycles.toNat = 240 := by decide
  have inRange : setup.accesses * setup.accessCycles.toNat ≤ Time.latest := by decide
  obtain ⟨-, report, crossed, rounds, finished, intact, -, -, -, -, -, time, durations⟩ :=
    measures_accesses setup timely
  obtain ⟨readFull, write, readValid, read, mean, -⟩ := durations inRange
  refine ⟨timely, by decide, total, report, finished, intact, ?_, readFull, write, readValid,
    read, mean.trans (by decide)⟩
  rw [time, total]
  decide

end Stages

end Benchmark

end BlockLink
