import BlockLink.Proofs.Driver
import BlockLink.Proofs.Lane

/-!
Deliveries.

A link is its two lanes, its clock and what stands aside of both. `Lane.flow` is all
that a delivery does to a lane. What crosses at one time would cross later as well,
and a free place is filled no matter when it became free, so of many deliveries the
last one decides.
-/

namespace BlockLink

namespace Lane

def accept (lane : Lane) (entry : Entry) : Lane :=
  { lane with arrived := lane.arrived ++ [entry], isPending := entry.final }

def dropOldest (lane : Lane) : Lane :=
  match lane.arrived with
  | [] => lane
  | entry :: rest =>
    { lane with arrived := rest, isPending := lane.isPending && !entry.final }

/-- The lane after as many of the entries as possible have crossed, the others waiting. -/
def flowOf (now : Time) : List Entry → Lane → Lane
  | [], lane => { lane with waiting := [] }
  | entry :: rest, lane =>
    if entry.readyAt ≤ now ∧ lane.CanAccept then flowOf now rest (lane.accept entry)
    else { lane with waiting := entry :: rest }

/-- The lane after a delivery. -/
def flow (now : Time) (lane : Lane) : Lane := flowOf now lane.waiting lane

section Flow

variable {now later : Time} {lane : Lane} {entry : Entry} {entries rest : List Entry}

theorem flowOf_of_able (able : entry.readyAt ≤ now ∧ lane.CanAccept) :
    flowOf now (entry :: rest) lane = flowOf now rest (lane.accept entry) :=
  if_pos able

theorem flowOf_of_unable (unable : ¬ (entry.readyAt ≤ now ∧ lane.CanAccept)) :
    flowOf now (entry :: rest) lane = { lane with waiting := entry :: rest } :=
  if_neg unable

theorem flowOf_withWaiting (now : Time) (lane : Lane) (entries before : List Entry) :
    flowOf now entries { lane with waiting := before } = flowOf now entries lane := by
  induction entries generalizing lane with
  | nil => rfl
  | cons entry rest inductionHypothesis =>
    by_cases able : entry.readyAt ≤ now ∧ lane.CanAccept
    · have ableBefore : entry.readyAt ≤ now ∧ { lane with waiting := before }.CanAccept := able
      rw [flowOf_of_able able, flowOf_of_able ableBefore]
      exact inductionHypothesis (lane.accept entry)
    · have unableBefore : ¬ (entry.readyAt ≤ now ∧ { lane with waiting := before }.CanAccept) :=
        able
      rw [flowOf_of_unable able, flowOf_of_unable unableBefore]

theorem flow_flowOf (notLater : now ≤ later) (lane : Lane) (entries : List Entry) :
    flow later (flowOf now entries lane) = flowOf later entries lane := by
  induction entries generalizing lane with
  | nil => rfl
  | cons entry rest inductionHypothesis =>
    by_cases able : entry.readyAt ≤ now ∧ lane.CanAccept
    · have ableLater : entry.readyAt ≤ later ∧ lane.CanAccept :=
        ⟨UInt64.le_trans able.1 notLater, able.2⟩
      rw [flowOf_of_able able, flowOf_of_able ableLater]
      exact inductionHypothesis (lane.accept entry)
    · rw [flowOf_of_unable able]
      exact flowOf_withWaiting later lane (entry :: rest) (entry :: rest)

theorem flow_flow (notLater : now ≤ later) (lane : Lane) :
    flow later (flow now lane) = flow later lane :=
  flow_flowOf notLater lane lane.waiting

/-- A delivery neither loses nor reorders entries. -/
theorem entries_flowOf (lane : Lane) (entries : List Entry) :
    (flowOf now entries lane).arrived ++ (flowOf now entries lane).waiting =
      lane.arrived ++ entries := by
  induction entries generalizing lane with
  | nil => rfl
  | cons entry rest inductionHypothesis =>
    by_cases able : entry.readyAt ≤ now ∧ lane.CanAccept
    · rw [flowOf_of_able able, inductionHypothesis, accept, List.append_assoc]
      rfl
    · rw [flowOf_of_unable able]

/-- What does not look at the entries that wait, and outlasts the arrival of one, outlasts a
delivery. -/
theorem holds_flowOf (holds : Lane → Prop)
    (withWaiting : ∀ (lane : Lane) (entries : List Entry), holds lane →
      holds { lane with waiting := entries })
    (accept : ∀ (lane : Lane) (entry : Entry), entry.readyAt ≤ now → lane.CanAccept →
      holds lane → holds (lane.accept entry))
    (entries : List Entry) (held : holds lane) : holds (flowOf now entries lane) := by
  induction entries generalizing lane with
  | nil => exact withWaiting lane [] held
  | cons entry rest inductionHypothesis =>
    by_cases able : entry.readyAt ≤ now ∧ lane.CanAccept
    · rw [flowOf_of_able able]
      exact inductionHypothesis (accept lane entry able.1 able.2 held)
    · rw [flowOf_of_unable able]
      exact withWaiting lane (entry :: rest) held

theorem arrived_flowOf_ne_nil (entries : List Entry) (nonempty : lane.arrived ≠ []) :
    (flowOf now entries lane).arrived ≠ [] := by
  apply holds_flowOf fun lane => lane.arrived ≠ []
  · exact fun _ _ nonempty => nonempty
  · intro lane entry _ _ _
    simp [accept]
  · exact nonempty

theorem canAccept_of_consumed (consumed : lane.arrived = []) (isClear : lane.isPending = false) :
    lane.CanAccept := by
  refine ⟨?_, isClear, ?_⟩
  · rw [consumed]
    decide
  · rintro ⟨held, member, -⟩
    rw [consumed] at member
    cases member

/-- A receiver with nothing to read and nothing to confirm gets the oldest block as soon as it
is due. -/
theorem arrived_flow_eq_nil_iff (waiting : lane.waiting = entry :: rest)
    (consumed : lane.arrived = []) (isClear : lane.isPending = false) :
    (lane.flow now).arrived = [] ↔ ¬ entry.readyAt ≤ now := by
  have able := canAccept_of_consumed consumed isClear
  rw [flow, waiting]
  by_cases due : entry.readyAt ≤ now
  · have nonempty : (lane.accept entry).arrived ≠ [] := by simp [accept]
    rw [flowOf_of_able ⟨due, able⟩]
    exact ⟨fun nothing => absurd nothing (arrived_flowOf_ne_nil rest nonempty),
      fun early => absurd due early⟩
  · rw [flowOf_of_unable fun ready => due ready.1]
    exact ⟨fun _ => due, fun _ => consumed⟩

theorem dropOldest_withWaiting (lane : Lane) (entries : List Entry) :
    { lane with waiting := entries }.dropOldest = { lane.dropOldest with waiting := entries } := by
  unfold dropOldest
  dsimp only
  split <;> rfl

@[simp]
theorem waiting_dropOldest (lane : Lane) : lane.dropOldest.waiting = lane.waiting := by
  unfold dropOldest
  split <;> rfl

/-- A receiver that takes an entry has read no message end, so its oldest block, if it has
one, may be read before as well as after. -/
theorem dropOldest_accept (entry : Entry) (able : lane.CanAccept) (nonempty : lane.arrived ≠ []) :
    (lane.accept entry).dropOldest = lane.dropOldest.accept entry ∧
      lane.dropOldest.CanAccept := by
  obtain ⟨room, isClear, noFinal⟩ := able
  obtain ⟨oldest, others, shape⟩ := List.exists_cons_of_ne_nil nonempty
  have plain : oldest.final = false :=
    Bool.eq_false_iff.mpr fun final => noFinal ⟨oldest, by simp [shape], final⟩
  have dropped : lane.dropOldest = { lane with arrived := others } := by
    simp [dropOldest, shape, isClear]
  constructor
  · rw [dropped]
    simp [dropOldest, accept, shape, plain]
  · rw [dropped]
    refine ⟨?_, isClear, ?_⟩
    · rw [shape, List.length_cons] at room
      exact Nat.lt_of_succ_lt room
    · rintro ⟨held, member, final⟩
      exact noFinal ⟨held, by simp [shape, member], final⟩

/-- It does not matter whether the oldest block is read before or after a delivery, if
another delivery follows. -/
theorem flow_dropOldest_flowOf (nonempty : lane.arrived ≠ []) :
    flow now (flowOf now entries lane).dropOldest = flowOf now entries lane.dropOldest := by
  induction entries generalizing lane with
  | nil => rw [flowOf, dropOldest_withWaiting]; rfl
  | cons entry rest inductionHypothesis =>
    by_cases able : entry.readyAt ≤ now ∧ lane.CanAccept
    · obtain ⟨swapped, ableDropped⟩ := dropOldest_accept entry able.2 nonempty
      rw [flowOf_of_able able, flowOf_of_able ⟨able.1, ableDropped⟩, ← swapped]
      apply inductionHypothesis
      simp [accept]
    · rw [flowOf_of_unable able, dropOldest_withWaiting]
      exact flowOf_withWaiting now lane.dropOldest (entry :: rest) (entry :: rest)

theorem flow_dropOldest_flow (nonempty : lane.arrived ≠ []) :
    flow now (flow now lane).dropOldest = flow now lane.dropOldest := by
  refine (flow_dropOldest_flowOf nonempty).trans ?_
  rw [flow, waiting_dropOldest]

end Flow

end Lane

/-- What taking entries in does to a station is what the flow does to its lane. -/
theorem Lane.flowOf_between (now : Time) (source target : Station) (entries : List Entry) :
    Lane.flowOf now entries (.between source target) =
      { Lane.between source (Station.intake now entries target).2 with
        waiting := entries.drop (Station.intake now entries target).1 } := by
  induction entries generalizing target with
  | nil => rfl
  | cons entry rest inductionHypothesis =>
    by_cases able : entry.readyAt ≤ now ∧ target.CanAccept
    · have ableLane : entry.readyAt ≤ now ∧ (Lane.between source target).CanAccept := able
      have accepted : (Lane.between source target).accept entry =
          .between source (target.accept entry able.2) := by
        simp [Lane.accept, Lane.between, Station.accept, able.2.2.1]
      rw [flowOf_of_able ableLane, accepted, inductionHypothesis]
      simp [Station.intake, able]
    · have unableLane : ¬ (entry.readyAt ≤ now ∧ (Lane.between source target).CanAccept) := able
      rw [flowOf_of_unable unableLane]
      simp [Station.intake, able]

namespace Link

/-- Whether two links differ in their lanes and their clocks at most. -/
structure AgreesAside (first second : Link) : Prop where
  config : second.config = first.config
  staged : second.staged = first.staged
  watermark : ∀ side queue,
    (second.station side).watermark queue = (first.station side).watermark queue

theorem station_eq_of_lanes {first second : Link} {side : Side}
    (sending : second.lane side = first.lane side)
    (receiving : second.lane side.peer = first.lane side.peer)
    (watermark : ∀ queue,
      (second.station side).watermark queue = (first.station side).watermark queue) :
    second.station side = first.station side := by
  rw [lane_peer, lane_peer] at receiving
  obtain ⟨waiting, -, isOpen, isLoaded, -⟩ := Lane.mk.inj sending
  obtain ⟨-, arrived, -, -, isPending⟩ := Lane.mk.inj receiving
  exact Station.ext (Fifo.ext waiting) (Fifo.ext arrived) (watermark .transmit)
    (watermark .receive) isOpen isPending isLoaded

theorem eq_of_lanes {first second : Link} (aside : first.AgreesAside second)
    (lanes : ∀ sender, second.lane sender = first.lane sender)
    (time : second.time = first.time) : second = first := by
  have stations (side : Side) : second.station side = first.station side :=
    station_eq_of_lanes (lanes side) (lanes side.peer) (aside.watermark side)
  exact Link.ext (PerSide.ext (stations .left) (stations .right)) aside.staged time aside.config

namespace AgreesAside

variable {first middle last : Link}

theorem refl (link : Link) : link.AgreesAside link :=
  ⟨rfl, rfl, fun _ _ => rfl⟩

theorem trans (before : first.AgreesAside middle) (after : middle.AgreesAside last) :
    first.AgreesAside last where
  config := after.config.trans before.config
  staged := after.staged.trans before.staged
  watermark side queue := (after.watermark side queue).trans (before.watermark side queue)

theorem symm (aside : first.AgreesAside last) : last.AgreesAside first where
  config := aside.config.symm
  staged := aside.staged.symm
  watermark side queue := (aside.watermark side queue).symm

end AgreesAside

theorem aside_law : Passage fun link _ last => link.AgreesAside last where
  rest := .refl
  next := .trans
  elapse _ _ := ⟨rfl, rfl, fun _ _ => rfl⟩
  deliver sender link :=
    ⟨rfl, rfl, fun side queue => (watermark_law queue _).deliver sender link side rfl⟩

theorem lane_deliver_self (link : Link) (sender : Side) :
    ((deliver sender).run link).state.lane sender = (link.lane sender).flow link.time := by
  have flowed := Lane.flowOf_between link.time (link.station sender) (link.station sender.peer)
    (link.station sender).tx.entries
  rw [run_deliver]
  refine Eq.trans ?_ flowed.symm
  simp [lane, Lane.between]

theorem lane_deliver_peer (link : Link) (sender : Side) :
    ((deliver sender).run link).state.lane sender.peer = link.lane sender.peer := by
  have kept : Lane.between (Station.intake link.time (link.station sender).tx.entries
      (link.station sender.peer)).2 (link.station sender) =
        .between (link.station sender.peer) (link.station sender) := by
    rw [Station.intake_kept]
    rfl
  rw [run_deliver, lane_peer, lane_peer]
  refine Eq.trans ?_ kept
  simp [Lane.between]

theorem time_settle (link : Link) : (settle.run link).state.time = link.time := rfl

theorem lane_settle (link : Link) (sender : Side) :
    (settle.run link).state.lane sender = (link.lane sender).flow link.time := by
  have first := lane_deliver_self link .left
  have second := lane_deliver_self ((deliver .left).run link).state .right
  cases sender with
  | left => exact (lane_deliver_peer _ .right).trans first
  | right =>
    have untouched := lane_deliver_peer link .left
    exact second.trans (congrArg (Lane.flow link.time) untouched)

theorem lane_charge (link : Link) (sender : Side) :
    (charge.run link).state.lane sender =
      (link.lane sender).flow (charge.run link).state.time := by
  rw [run_charge]
  exact lane_settle { link with time := link.time.after link.config.accessCycles } sender

theorem time_law : Passage fun link _ last => link.time ≤ last.time where
  rest _ := UInt64.le_refl _
  next first second := UInt64.le_trans first second
  elapse cycles link := UInt64.le_iff_toNat_le.mpr (Time.le_after link.time cycles)
  deliver _ _ := UInt64.le_refl _

/-- Of the deliveries that a number of charges bring, the last one decides. -/
theorem lane_charges_succ (count : Nat) (link : Link) (sender : Side) :
    ((charges (count + 1)).run link).state.lane sender =
      (link.lane sender).flow ((charges (count + 1)).run link).state.time := by
  induction count generalizing link with
  | zero => exact lane_charge link sender
  | succ count inductionHypothesis =>
    have notLater := time_law.charges (count + 1) (charge.run link).state
    rw [state_charges_succ, inductionHypothesis, lane_charge, Lane.flow_flow notLater]

theorem time_charges {first second : Link} (time : second.time = first.time)
    (config : second.config = first.config) (count : Nat) :
    ((charges count).run second).state.time = ((charges count).run first).state.time := by
  induction count generalizing first second with
  | zero => exact time
  | succ count inductionHypothesis =>
    rw [state_charges_succ, state_charges_succ]
    apply inductionHypothesis
    · rw [run_charge, run_charge]
      change second.time.after second.config.accessCycles =
        first.time.after first.config.accessCycles
      rw [time, config]
    · exact (aside_law.charge second).config.trans
        (config.trans (aside_law.charge first).config.symm)

/-- A number of charges and one more. -/
theorem state_charges_last (count : Nat) (link : Link) :
    ((charges (count + 1)).run link).state =
      (charge.run ((charges count).run link).state).state := by
  induction count generalizing link with
  | zero => rfl
  | succ count inductionHypothesis =>
    rw [state_charges_succ, inductionHypothesis, ← state_charges_succ]

section Reading

variable (link : Link) (side : Side)

/-- The link when the oldest block that a side has received is gone, before anything is
delivered. -/
def withoutOldest : Link := link.withStation side (link.station side).dropOldestRx

theorem lane_withoutOldest_self : (link.withoutOldest side).lane side = link.lane side := by
  rw [withoutOldest, lane_withStation_self, lane]
  unfold Station.dropOldestRx
  split <;> rfl

theorem lane_withoutOldest_peer :
    (link.withoutOldest side).lane side.peer = (link.lane side.peer).dropOldest := by
  rw [withoutOldest, lane_withStation_peer, lane_peer]
  cases shape : (link.station side).rx.entries <;>
    simp [Station.dropOldestRx, Fifo.oldest?, Lane.dropOldest, Lane.between, shape]

theorem aside_withoutOldest : link.AgreesAside (link.withoutOldest side) := by
  refine ⟨rfl, rfl, fun other queue => ?_⟩
  rcases Side.self_or_peer side other with rfl | rfl
  · rw [withoutOldest, station_withStation_self]
    unfold Station.dropOldestRx
    split <;> rfl
  · rw [withoutOldest, station_withStation_peer]

variable {link side} {block : Block}

theorem state_read_of_ok (shown : (link.station side).peek = .ok block) :
    ((read side).run link).state = (settle.run (link.withoutOldest side)).state := by
  rw [read_eq, Step.run_bind, run_dequeue_of_ok shown]
  rfl

theorem arrived_of_peek (shown : (link.station side).peek = .ok block) :
    (link.lane side.peer).arrived ≠ [] := by
  obtain ⟨oldest, rest, shape, -, -⟩ := (Station.peek_eq_ok_iff _).mp shown
  rw [lane_peer]
  exact List.ne_nil_of_mem (by simp [Lane.between, shape] : oldest ∈ _)

theorem time_read_of_ok (shown : (link.station side).peek = .ok block) :
    ((read side).run link).state.time = link.time := by
  rw [state_read_of_ok shown, time_settle]
  rfl

theorem aside_read_of_ok (shown : (link.station side).peek = .ok block) :
    link.AgreesAside ((read side).run link).state := by
  rw [state_read_of_ok shown]
  exact (aside_withoutOldest link side).trans (aside_law.settle _)

theorem lane_read_of_ok (shown : (link.station side).peek = .ok block) (sender : Side) :
    ((read side).run link).state.lane sender =
      Lane.flow link.time ((link.withoutOldest side).lane sender) := by
  rw [state_read_of_ok shown, lane_settle]
  rfl

/-- A block can be taken before some charges as well as after them. -/
theorem state_read_charges (count : Nat) (shown : (link.station side).peek = .ok block) :
    ((read side).run ((charges (count + 1)).run link).state).state =
      ((charges (count + 1)).run ((read side).run link).state).state := by
  have shownLater := (readable_law block).charges (count + 1) link side shown
  have sameTime := time_charges (time_read_of_ok shown) (aside_read_of_ok shown).config (count + 1)
  apply eq_of_lanes
  · have takenFirst := (aside_read_of_ok shown).trans (aside_law.charges (count + 1) _)
    have takenLast := (aside_law.charges (count + 1) link).trans (aside_read_of_ok shownLater)
    exact takenFirst.symm.trans takenLast
  -- Either way the last delivery comes at the same time, and it makes up for all before it.
  · intro sender
    have notLater := time_law.charges (count + 1) link
    rw [lane_read_of_ok shownLater, lane_charges_succ, lane_read_of_ok shown, sameTime,
      Lane.flow_flow notLater]
    rcases Side.self_or_peer side sender with rfl | rfl
    · rw [lane_withoutOldest_self, lane_withoutOldest_self, lane_charges_succ]
      exact Lane.flow_flow (UInt64.le_refl _) _
    · rw [lane_withoutOldest_peer, lane_withoutOldest_peer, lane_charges_succ]
      exact Lane.flow_dropOldest_flow (arrived_of_peek shown)
  · exact (time_read_of_ok shownLater).trans sameTime.symm

end Reading

end Link

end BlockLink
