import BlockLink.Proofs.Confirmation
import BlockLink.Proofs.Elapse
import BlockLink.Proofs.Polling
import Mathlib.Algebra.Order.Floor.Div

/-!
How long a receiver waits for a block.

Each poll is one access and moves the clock by what an access takes, so the polls of a wait
look at the link at evenly spaced times. The wait ends with the first of them at which the
block is due, unless the budget is used up before. Both the time until the block is due and
the budget are rounded up to whole polls.
-/

namespace BlockLink

/-- Waiting for a block that can be read. -/
def Watch.Aim.blockWithin (timeout : Time) : Watch.Aim :=
  { flag := .rxValid, expected := true, timeout }

/-- What a wait for the status of a side polls. -/
def Route.watch (side : Side) : Route → Watch Link
  | .direct => Endpoint.watch side
  | .registers => Driver.watch (Link.bus side)

theorem Route.watch_eq (route : Route) (side : Side) : route.watch side = Endpoint.watch side := by
  cases route with
  | direct => rfl
  | registers => exact Link.watch_bus side

namespace Link

variable (link : Link) (side : Side) (route : Route)

theorem run_callWait (aim : Watch.Aim) :
    (call route side (.waitFor aim)).run link =
      let outcome := ((route.watch side).waitFor aim).run link
      ⟨Reply.ofUnit <$> outcome.value, outcome.state, outcome.events⟩ := by
  cases route <;> simp [call, Endpoint.perform, Driver.perform, Route.watch]

theorem value_callWait {aim : Watch.Aim} {answer : Except Refusal Unit}
    (ended : (((route.watch side).waitFor aim).run link).value = .ok answer) :
    ((call route side (.waitFor aim)).run link).value = .ok (.ofUnit answer) := by
  rw [run_callWait]
  dsimp only
  rw [ended]
  rfl

theorem toNat_time_charges (count : Nat) :
    ((charges count).run link).state.time.toNat =
      min (link.time.toNat + count * link.config.accessCycles.toNat) Time.latest := by
  induction count with
  | zero =>
    have bound := link.time.toNat_lt
    have still : ((charges 0).run link).state.time = link.time := rfl
    rw [still, Nat.zero_mul, Time.latest]
    omega
  | succ count inductionHypothesis =>
    have config := (aside_law.charges count link).config
    rw [state_charges_last, run_charge, time_advance, Time.toNat_after, inductionHypothesis, config,
      Nat.succ_mul]
    omega

/-- The polls that use up a budget. There is always one. -/
def pollsWithin (timeout : Time) : Nat := max 1 (timeout.toNat ⌈/⌉ link.config.accessCycles.toNat)

/-- The polls behind which a point on the clock is reached. -/
def pollsUntil (readyAt : Time) : Nat :=
  (readyAt.toNat - link.time.toNat) ⌈/⌉ link.config.accessCycles.toNat

theorem one_le_pollsWithin (timeout : Time) : 1 ≤ link.pollsWithin timeout :=
  Nat.le_max_left ..

theorem inRange_of_le {polls number : Nat} (notMore : number ≤ polls)
    (inRange : link.time.toNat + polls * link.config.accessCycles.toNat ≤ Time.latest) :
    link.time.toNat + number * link.config.accessCycles.toNat ≤ Time.latest :=
  Nat.le_trans (Nat.add_le_add_left (Nat.mul_le_mul_right _ notMore) _) inRange

section Polls

theorem run_watchStatus :
    (route.watch side).status.run link =
      ⟨.ok ((charge.run link).state.status side), (charge.run link).state,
        (charge.run link).events⟩ := by
  rw [Route.watch_eq, Endpoint.watch, Step.run_map, run_endpointStatus, List.append_nil]
  rfl

theorem run_watchNow : (route.watch side).now.run link = ⟨link.time, link, []⟩ := by
  rw [Route.watch_eq]
  rfl

/-- The polls of a wait are accesses and no more than that. -/
theorem state_rounds (polls : Nat) :
    (((route.watch side).rounds polls).run link).state = ((charges polls).run link).state := by
  induction polls with
  | zero =>
    rw [Watch.rounds, run_watchNow]
    rfl
  | succ polls inductionHypothesis =>
    simp only [Watch.run_rounds_succ, Watch.run_look_succ, run_watchNow, run_watchStatus,
      inductionHypothesis, state_charges_last]

theorem value_rounds (polls : Nat) :
    (((route.watch side).rounds polls).run link).value =
      ((charges polls).run link).state.time := by
  cases polls with
  | zero =>
    rw [Watch.rounds, run_watchNow]
    rfl
  | succ polls =>
    simp only [Watch.run_rounds_succ, Watch.run_look_succ, run_watchNow, run_watchStatus,
      state_rounds, state_charges_last]

theorem state_look_succ (polls : Nat) :
    (((route.watch side).look (polls + 1)).run link).state =
      ((charges (polls + 1)).run link).state := by
  simp only [Watch.run_look_succ, run_watchStatus, state_rounds, state_charges_last]

theorem value_look_succ (polls : Nat) :
    (((route.watch side).look (polls + 1)).run link).value =
      .ok (((charges (polls + 1)).run link).state.status side) := by
  simp only [Watch.run_look_succ, run_watchStatus, state_rounds, state_charges_last]

/-- Wherever a wait ends, its polls are all that has happened to the link. -/
theorem state_of_ends {aim : Watch.Aim} {number : Nat} (positive : 1 ≤ number)
    {outcome : Outcome Event Link (Except Fault (Except Refusal Unit))}
    (ends : (route.watch side).Ends aim link number outcome) :
    outcome.state = ((charges number).run link).state := by
  obtain ⟨before, rfl⟩ := Nat.exists_eq_add_of_le' positive
  cases ends with
  | met => exact state_look_succ link side route before
  | expired => exact state_rounds link side route (before + 1)
  | failed => exact state_look_succ link side route before

/-- Whether a wait ends with a poll, behind as many accesses and no more than those. -/
structure WaitEnds (aim : Watch.Aim) (polls : Nat) : Prop where
  ends : (route.watch side).Ends aim link polls (((route.watch side).waitFor aim).run link)
  state :
    ((call route side (.waitFor aim)).run link).state = ((charges polls).run link).state
  time :
    ((call route side (.waitFor aim)).run link).state.time.toNat =
      link.time.toNat + polls * link.config.accessCycles.toNat

end Polls

/-- Whether a side has nothing to read and nothing to confirm, and a block is on its way. -/
structure Expects (oldest : Entry) : Prop where
  consumed : (link.station side).rx.entries = []
  clear : (link.station side).boundaryPending = false
  sent : (link.station side.peer).tx.oldest? = some oldest

namespace Expects

variable {link side} {oldest : Entry} (expects : link.Expects side oldest)
include expects

theorem lane_peer :
    (link.lane side.peer).arrived = [] ∧ (link.lane side.peer).isPending = false ∧
      ∃ rest, (link.lane side.peer).waiting = oldest :: rest := by
  obtain ⟨rest, shape⟩ := List.head?_eq_some_iff.mp expects.sent
  rw [Link.lane_peer]
  exact ⟨expects.consumed, expects.clear, rest, shape⟩

/-- A block that could be here is here. -/
theorem early (settled : link.Settled) : link.time < oldest.readyAt := by
  obtain ⟨consumed, isClear, rest, waiting⟩ := expects.lane_peer
  have able := Lane.canAccept_of_consumed consumed isClear
  rw [← UInt64.not_le]
  exact fun due => settled side.peer oldest rest waiting ⟨due, able⟩

/-- After some accesses there is a block to read if and only if the oldest is due. -/
theorem rxValid_iff (count : Nat) :
    (((charges (count + 1)).run link).state.status side).rxValid = true ↔
      oldest.readyAt ≤ ((charges (count + 1)).run link).state.time := by
  obtain ⟨consumed, isClear, rest, waiting⟩ := expects.lane_peer
  have shown (later : Link) :
      (later.status side).rxValid = decide (0 < (later.station side).rx.entries.length) := rfl
  rw [shown, decide_eq_true_iff, List.length_pos_iff, ne_eq, ← arrived_lane_peer,
    lane_charges_succ, Lane.arrived_flow_eq_nil_iff waiting consumed isClear, not_not]

variable (route : Route) (timeout : Time) {number : Nat} (positive : 1 ≤ number)
  (inRange : link.time.toNat + number * link.config.accessCycles.toNat ≤ Time.latest)
include positive inRange

theorem isMet_iff :
    (Watch.Aim.blockWithin timeout).IsMet (((charges number).run link).state.status side) ↔
      oldest.readyAt.toNat ≤ link.time.toNat + number * link.config.accessCycles.toNat := by
  obtain ⟨before, rfl⟩ := Nat.exists_eq_add_of_le' positive
  have time := toNat_time_charges link (before + 1)
  rw [Nat.min_eq_left inRange] at time
  rw [← time, ← UInt64.le_iff_toNat_le, ← expects.rxValid_iff before]
  rfl

theorem meets_iff :
    (route.watch side).Meets (.blockWithin timeout) link number ↔
      oldest.readyAt.toNat ≤ link.time.toNat + number * link.config.accessCycles.toNat := by
  rw [← expects.isMet_iff timeout positive inRange]
  obtain ⟨before, rfl⟩ := Nat.exists_eq_add_of_le' positive
  rw [Watch.Meets, value_look_succ]
  simp

theorem misses_iff :
    (route.watch side).Misses (.blockWithin timeout) link number ↔
      link.time.toNat + number * link.config.accessCycles.toNat < oldest.readyAt.toNat := by
  rw [← Nat.not_le, ← expects.isMet_iff timeout positive inRange]
  obtain ⟨before, rfl⟩ := Nat.exists_eq_add_of_le' positive
  rw [Watch.Misses, value_look_succ]
  simp

end Expects

section Rounding

variable {link} (costs : 1 ≤ link.config.accessCycles.toNat)
include costs

theorem spent_eq {number : Nat}
    (inRange : link.time.toNat + number * link.config.accessCycles.toNat ≤ Time.latest) :
    (route.watch side).spent link number = number * link.config.accessCycles.toNat := by
  have start : ((route.watch side).now.run link).value = link.time := by rw [run_watchNow]
  have least := Nat.mul_le_mul_left number costs
  rw [Watch.spent, value_rounds, start, toNat_time_charges, Nat.min_eq_left inRange]
  omega

theorem pollsUntil_le_iff {readyAt : Time} {number : Nat} :
    link.pollsUntil readyAt ≤ number ↔
      readyAt.toNat ≤ link.time.toNat + number * link.config.accessCycles.toNat := by
  rw [pollsUntil, ceilDiv_le_iff_le_mul costs, Nat.mul_comm]
  omega

theorem lt_pollsUntil_iff {readyAt : Time} {number : Nat} :
    number < link.pollsUntil readyAt ↔
      link.time.toNat + number * link.config.accessCycles.toNat < readyAt.toNat := by
  rw [← Nat.not_le, ← Nat.not_le, pollsUntil_le_iff costs]

theorem one_le_pollsUntil {readyAt : Time} (early : link.time < readyAt) :
    1 ≤ link.pollsUntil readyAt := by
  have later := UInt64.lt_iff_toNat_lt.mp early
  apply (lt_pollsUntil_iff costs).mpr
  omega

theorem pollsWithin_le_iff {timeout : Time} {number : Nat} (positive : 1 ≤ number) :
    link.pollsWithin timeout ≤ number ↔
      timeout.toNat ≤ number * link.config.accessCycles.toNat := by
  rw [pollsWithin, Nat.max_le, ceilDiv_le_iff_le_mul costs, Nat.mul_comm]
  exact and_iff_right positive

end Rounding

namespace Expects

variable {link side} {oldest : Entry} (expects : link.Expects side oldest)
  (costs : 1 ≤ link.config.accessCycles.toNat) {timeout : Time} {number : Nat}
include expects costs

/-- A wait goes on until the block is due or the budget is used up. -/
theorem goesOn_iff (positive : 1 ≤ number)
    (inRange : link.time.toNat + number * link.config.accessCycles.toNat ≤ Time.latest) :
    (route.watch side).GoesOn (.blockWithin timeout) link number ↔
      number < link.pollsUntil oldest.readyAt ∧ number < link.pollsWithin timeout := by
  have early : (route.watch side).Misses (.blockWithin timeout) link number ↔
      number < link.pollsUntil oldest.readyAt := by
    rw [expects.misses_iff route timeout positive inRange, lt_pollsUntil_iff costs]
  have unused : (route.watch side).spent link number < timeout.toNat ↔
      number < link.pollsWithin timeout := by
    rw [spent_eq side route costs inRange, ← Nat.not_le, ← pollsWithin_le_iff costs positive,
      Nat.not_le]
  exact and_congr early unused

section Ending

variable (settled : link.Settled)
  (inRange : link.time.toNat +
    link.pollsWithin timeout * link.config.accessCycles.toNat ≤ Time.latest)
include settled inRange

/-- A wait ends with the poll at which the block is due, or with the one that uses up the
budget. -/
theorem ends :
    (route.watch side).Ends (.blockWithin timeout) link
      (min (link.pollsUntil oldest.readyAt) (link.pollsWithin timeout))
      (((route.watch side).waitFor (.blockWithin timeout)).run link) := by
  have later := one_le_pollsUntil costs (expects.early settled)
  have budget := link.one_le_pollsWithin timeout
  apply Watch.ends_at
  · omega
  · intro earlier positive isEarlier
    have inRangeBefore := link.inRange_of_le (Nat.le_of_lt (Nat.lt_of_lt_of_le isEarlier
      (Nat.min_le_right ..))) inRange
    rw [expects.goesOn_iff route costs positive inRangeBefore]
    omega
  · have inRangeLast := link.inRange_of_le (Nat.min_le_right
      (link.pollsUntil oldest.readyAt) (link.pollsWithin timeout)) inRange
    rw [expects.goesOn_iff route costs (by omega) inRangeLast]
    omega

theorem waitEnds :
    link.WaitEnds side route (.blockWithin timeout)
      (min (link.pollsUntil oldest.readyAt) (link.pollsWithin timeout)) := by
  have ends := expects.ends route costs settled inRange
  have later := one_le_pollsUntil costs (expects.early settled)
  have budget := link.one_le_pollsWithin timeout
  have inRangeLast := link.inRange_of_le (Nat.min_le_right
    (link.pollsUntil oldest.readyAt) (link.pollsWithin timeout)) inRange
  have state := state_of_ends link side route (by omega) ends
  refine ⟨ends, ?_, ?_⟩
  · rw [run_callWait]
    exact state
  · rw [run_callWait]
    dsimp only
    rw [state, toNat_time_charges, Nat.min_eq_left inRangeLast]

theorem value_of_due (inTime : link.pollsUntil oldest.readyAt ≤ link.pollsWithin timeout) :
    ((call route side (.waitFor (.blockWithin timeout))).run link).value = .ok .done := by
  have ends := expects.ends route costs settled inRange
  have later := one_le_pollsUntil costs (expects.early settled)
  have inRangeLast := link.inRange_of_le inTime inRange
  have meets := (expects.meets_iff route timeout later inRangeLast).mpr
    ((pollsUntil_le_iff costs).mp (Nat.le_refl _))
  rw [Nat.min_eq_left inTime] at ends
  exact value_callWait link side route (ends.ok_iff.mpr meets)

theorem value_of_late (late : link.pollsWithin timeout < link.pollsUntil oldest.readyAt) :
    ((call route side (.waitFor (.blockWithin timeout))).run link).value =
      .ok (.refused .timeout) := by
  have ends := expects.ends route costs settled inRange
  have budget := link.one_le_pollsWithin timeout
  have misses := (expects.misses_iff route timeout budget inRange).mpr
    ((lt_pollsUntil_iff costs).mp late)
  have used : timeout.toNat ≤ (route.watch side).spent link (link.pollsWithin timeout) := by
    rw [spent_eq side route costs inRange]
    exact (pollsWithin_le_iff costs budget).mp (Nat.le_refl _)
  rw [Nat.min_eq_right (Nat.le_of_lt late)] at ends
  exact value_callWait link side route (ends.timeout_iff.mpr ⟨misses, used⟩)

end Ending

end Expects

end Link

/-- A wait for a block succeeds if and only if the block is due by the time of the last poll
that the budget allows. The polls are evenly spaced, and the wait ends with the first of them at
which the block is due, or else with the last. -/
theorem History.waits_for_due_block (history : History) (side : Side) (route : Route)
    (timeout : Time) {oldest : Entry} (expects : history.link.Expects side oldest)
    (costs : 1 ≤ history.link.config.accessCycles.toNat)
    (inRange : history.link.time.toNat +
      history.link.pollsWithin timeout * history.link.config.accessCycles.toNat ≤ Time.latest) :
    let link := history.link
    let now := link.time.toNat
    let cycles := link.config.accessCycles.toNat
    let polls := link.pollsWithin timeout
    let due := link.pollsUntil oldest.readyAt
    let aim := Watch.Aim.blockWithin timeout
    let outcome := (Link.call route side (.waitFor aim)).run link
    (outcome.value = .ok .done ↔ oldest.readyAt.toNat ≤ now + polls * cycles) ∧
    (oldest.readyAt.toNat ≤ now + timeout.toNat → outcome.value = .ok .done) ∧
    (oldest.readyAt.toNat ≤ now + polls * cycles → link.WaitEnds side route aim due) ∧
    (now + polls * cycles < oldest.readyAt.toNat →
      outcome.value = .ok (.refused .timeout) ∧ link.WaitEnds side route aim polls) ∧
    ∀ number ≤ polls,
      (((route.watch side).rounds number).run link).value.toNat = now + number * cycles := by
  intro link now cycles polls due aim outcome
  have settled := history.settled
  have waitEnds := expects.waitEnds route costs settled inRange
  have within : timeout.toNat ≤ polls * cycles :=
    (Link.pollsWithin_le_iff costs (link.one_le_pollsWithin timeout)).mp (Nat.le_refl _)
  have done (inTime : oldest.readyAt.toNat ≤ now + polls * cycles) : outcome.value = .ok .done :=
    expects.value_of_due route costs settled inRange ((Link.pollsUntil_le_iff costs).mpr inTime)
  have refused (late : now + polls * cycles < oldest.readyAt.toNat) :
      outcome.value = .ok (.refused .timeout) :=
    expects.value_of_late route costs settled inRange ((Link.lt_pollsUntil_iff costs).mpr late)
  refine ⟨⟨fun succeeded => ?_, done⟩, fun soon => done (by omega), fun inTime => ?_,
    fun late => ⟨refused late, ?_⟩, fun number notLater => ?_⟩
  · by_contra late
    rw [refused (Nat.not_le.mp late)] at succeeded
    cases succeeded
  · rw [Nat.min_eq_left ((Link.pollsUntil_le_iff costs).mpr inTime)] at waitEnds
    exact waitEnds
  · rw [Nat.min_eq_right (Nat.le_of_lt ((Link.lt_pollsUntil_iff costs).mpr late))] at waitEnds
    exact waitEnds
  · rw [Link.value_rounds, Link.toNat_time_charges,
      Nat.min_eq_left (link.inRange_of_le notLater inRange)]

/-- A block that is due at 26, polled for every 3 cycles from 6 on. -/
theorem History.waits_for_due_block_in_seven_polls :
    let config : Config := { linkLatency := 20, accessCycles := 3 }
    let history := (created config (.idle config 0) rfl).extended
      [.call .direct .left .openMessage, .call .direct .left (.load ⟨1, 2, 3, 4⟩)] (by decide)
    let oldest : Entry := { block := ⟨1, 2, 3, 4⟩, final := false, readyAt := 26 }
    let patient := (Link.call .registers .right (.waitFor (.blockWithin 20))).run history.link
    let impatient := (Link.call .direct .right (.waitFor (.blockWithin 18))).run history.link
    history.link.Expects .right oldest ∧ history.link.time = 6 ∧
    patient.value = .ok .done ∧ patient.state.time.toNat = 27 ∧
    impatient.value = .ok (.refused .timeout) ∧ impatient.state.time.toNat = 24 := by
  intro config history oldest patient impatient
  have expects : history.link.Expects .right oldest := by constructor <;> decide +kernel
  have costs : 1 ≤ history.link.config.accessCycles.toNat := by decide +kernel
  have enough := history.waits_for_due_block .right .registers 20 expects costs (by decide +kernel)
  have short := history.waits_for_due_block .right .direct 18 expects costs (by decide +kernel)
  obtain ⟨-, done, last, -⟩ := enough
  obtain ⟨-, -, -, late, -⟩ := short
  have seventh := (last (by decide +kernel)).time
  obtain ⟨refused, sixth⟩ := late (by decide +kernel)
  refine ⟨expects, by decide +kernel, done (by decide +kernel), ?_, refused, ?_⟩
  · exact seventh.trans (by decide +kernel)
  · exact sixth.time.trans (by decide +kernel)

end BlockLink
