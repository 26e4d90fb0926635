import BlockLink.Proofs.Punctuality
import BlockLink.Proofs.Refinement

/-!
A receiver alone can drain its direction.

Once everything that waits is due, only the receiver holds anything back. One
confirmation lets in whatever a boundary kept out, and what comes in may end a message
itself; nothing comes in behind that, so after a second one the oldest block is there
and free. So rounds of two confirmations and a read take the outstanding blocks one by
one, wherever they were and whatever held them.
-/

namespace BlockLink

/-- The end of the clock. -/
def Time.last : Time := .ofNat Time.latest

theorem Time.toNat_last : Time.last.toNat = Time.latest := rfl

theorem Time.le_last (time : Time) : time ≤ Time.last := by
  have bound := time.toNat_lt
  rw [UInt64.le_iff_toNat_le, toNat_last]
  unfold Time.latest
  omega

theorem Time.after_last (time : Time) : time.after .last = .last := by
  rw [← UInt64.toNat_inj, toNat_after, toNat_last]
  omega

theorem Time.eq_last_of_le {time : Time} (atEnd : Time.last ≤ time) : time = Time.last :=
  UInt64.le_antisymm (Time.le_last time) atEnd

namespace Lane

/-- The blocks that are loaded and not read, the oldest first. -/
def outstanding (lane : Lane) : List Block := (lane.arrived ++ lane.waiting).map Entry.block

variable {lane : Lane}

theorem map_fst_stamps (lane : Lane) : lane.stamps.map Prod.fst = lane.outstanding := by
  simp [stamps, outstanding, Entry.stamp, Function.comp_def]

theorem outstanding_flow (now : Time) (lane : Lane) :
    (lane.flow now).outstanding = lane.outstanding := by
  rw [← map_fst_stamps, ← map_fst_stamps, flow, stamps_flowOf, stamps]

theorem outstanding_dropOldest {entry : Entry} {rest : List Entry}
    (arrived : lane.arrived = entry :: rest) :
    lane.outstanding = entry.block :: lane.dropOldest.outstanding := by
  simp [outstanding, dropOldest, arrived]

/-- With no boundary pending and everything due, the receiver has the oldest block. -/
theorem arrived_flow_ne_nil (isClear : lane.isPending = false)
    (nonempty : lane.outstanding ≠ []) : (lane.flow .last).arrived ≠ [] := by
  cases arrived : lane.arrived with
  | cons entry rest => exact arrived_flowOf_ne_nil lane.waiting (by simp [arrived])
  | nil =>
    cases waiting : lane.waiting with
    | nil => simp [outstanding, arrived, waiting] at nonempty
    | cons entry rest =>
      intro nothing
      exact (arrived_flow_eq_nil_iff waiting arrived isClear).mp nothing (Time.le_last _)

/-- The lane when its receiver has confirmed at the end of time. -/
def released (lane : Lane) : Lane := (lane.flow .last).confirmed.flow .last

theorem flow_released (lane : Lane) : lane.released.flow .last = lane.released :=
  flow_flow (UInt64.le_refl _) _

theorem outstanding_released (lane : Lane) : lane.released.outstanding = lane.outstanding := by
  have confirmed : (lane.flow .last).confirmed.outstanding = (lane.flow .last).outstanding := rfl
  rw [released, outstanding_flow, confirmed, outstanding_flow]

/-- A second confirmation clears what the first one let in, and nothing comes in behind it. -/
theorem isPending_released_twice (lane : Lane) : lane.released.released.isPending = false := by
  have cleared : lane.released.released = lane.released.confirmed := by
    rw [released, flow_released]
    exact receive_confirm_confirm .last (lane.flow .last)
  rw [cleared]
  rfl

/-- After two confirmations the oldest outstanding block is free to be read. -/
theorem exists_arrived_released_twice {block : Block} {blocks : List Block}
    (held : lane.outstanding = block :: blocks) :
    lane.released.released.peek = .ok block ∧
      lane.released.released.dropOldest.outstanding = blocks := by
  have isClear := isPending_released_twice lane
  have outstanding : lane.released.released.outstanding = block :: blocks := by
    rw [outstanding_released, outstanding_released, held]
  have nonempty := arrived_flow_ne_nil isClear (by simp [outstanding])
  rw [flow_released] at nonempty
  obtain ⟨entry, rest, arrived⟩ := List.exists_cons_of_ne_nil nonempty
  rw [outstanding_dropOldest arrived] at outstanding
  obtain ⟨rfl, same⟩ := List.cons.inj outstanding
  refine ⟨?_, same⟩
  rw [peek, arrived, isClear]
  simp

end Lane

namespace Link

/-- The blocks on their way to a side, the oldest first. -/
def outstanding (link : Link) (side : Side) : List Block :=
  (link.station side).rx.blocks ++ (link.station side.peer).tx.blocks

theorem outstanding_eq_lane (link : Link) (side : Side) :
    link.outstanding side = (link.lane side.peer).outstanding := by
  simp [outstanding, Lane.outstanding, lane_peer, Lane.between, Fifo.blocks]

theorem run_performAll_append (first second : List Operation) (link : Link) :
    let before := (performAll first).run link
    let after := (performAll second).run before.state
    ((performAll (first ++ second)).run link).value = before.value ++ after.value ∧
      ((performAll (first ++ second)).run link).state = after.state := by
  induction first generalizing link with
  | nil => exact ⟨rfl, rfl⟩
  | cons operation rest inductionHypothesis =>
    obtain ⟨value, state⟩ := inductionHypothesis ((perform operation).run link).state
    exact ⟨congrArg (_ :: ·) value, state⟩

section Last

variable {link : Link} (atLast : link.time = .last) (side : Side)
include atLast

theorem time_charges_last (count : Nat) : ((charges count).run link).state.time = .last := by
  apply Time.eq_last_of_le
  rw [← atLast]
  exact time_law.charges count link

theorem lane_charges_last (count : Nat) (sender : Side) :
    ((charges (count + 1)).run link).state.lane sender = (link.lane sender).flow .last := by
  rw [lane_charges_succ, time_charges_last atLast]

end Last

end Link

/-- Two confirmations and a read, each its own way. -/
def Operation.drainRound (side : Side) (routes : Route × Route × Route) : List Operation :=
  [.call routes.1 side .confirm, .call routes.2.1 side .confirm, .call routes.2.2 side .read]

namespace History

section Last

variable (history : History) (atLast : history.link.time = .last) (side : Side) (route : Route)
include atLast

theorem confirm_last :
    let later := history.performed (.call route side .confirm) id
    ((Link.perform (.call route side .confirm)).run history.link).value = .reply .done ∧
      later.link.time = .last ∧
      later.link.lane side.peer = (history.link.lane side.peer).released := by
  have acted :=
    Link.run_callPulse route side history.link .confirm rfl (history.watermarked.2 side)
  have charged : ((Link.charges route.accesses).run history.link).state.lane side.peer =
      (history.link.lane side.peer).flow .last := by
    cases route with
    | direct => exact Link.lane_charges_last atLast 0 side.peer
    | registers => exact Link.lane_charges_last atLast 1 side.peer
  have time := Link.time_charges_last atLast route.accesses
  intro later
  have state : later.link = ((Link.call route side .confirm).run history.link).state := rfl
  rw [state, acted, Link.perform, Step.run_map, acted]
  refine ⟨rfl, time, ?_⟩
  refine (Link.lane_confirm_peer _ side).trans ?_
  rw [charged, time]
  rfl

theorem read_last {block : Block}
    (shown : ((history.link.lane side.peer).flow .last).peek = .ok block) :
    let later := history.performed (.call route side .read) id
    ((Link.perform (.call route side .read)).run history.link).value = .reply (.block block) ∧
      later.link.time = .last ∧
      later.link.lane side.peer =
        ((history.link.lane side.peer).flow .last).dropOldest.flow .last := by
  have shownAt (count : Nat) :
      (((Link.charges (count + 1)).run history.link).state.station side).peek = .ok block := by
    rw [Link.peek_eq_lane, Link.lane_charges_last atLast, shown]
  have taken (count : Nat) :
      let state := ((Link.read side).run ((Link.charges (count + 1)).run history.link).state).state
      state.time = .last ∧ state.lane side.peer =
        ((history.link.lane side.peer).flow .last).dropOldest.flow .last := by
    have time := Link.time_charges_last atLast (count + 1)
    refine ⟨(Link.time_read_of_ok (shownAt count)).trans time, ?_⟩
    rw [Link.lane_read_peer_of_ok (shownAt count), Link.lane_charges_last atLast, time]
  have shownCharged : ((Link.charge.run history.link).state.station side).peek = .ok block :=
    shownAt 0
  have value := Link.value_callRead route side history.link (history.framed_charge side)
  rw [shownCharged] at value
  intro later
  have state : later.link = ((Link.call route side .read).run history.link).state := rfl
  rw [state, Link.perform, Step.run_map, value]
  refine ⟨rfl, ?_⟩
  cases route with
  | direct =>
    rw [Link.run_directRead]
    exact taken 0
  | registers =>
    rw [Link.run_registersRead_of_ok (history.framed_charge side) shownCharged]
    exact taken 4

end Last

/-- A round at the end of time takes the oldest outstanding block. -/
theorem exists_drainRound (history : History) (atLast : history.link.time = .last) (side : Side)
    (routes : Route × Route × Route) {block : Block} {blocks : List Block}
    (held : history.link.outstanding side = block :: blocks) :
    ∃ later : History,
      let outcome := (Link.performAll (Operation.drainRound side routes)).run history.link
      outcome.value = [.reply .done, .reply .done, .reply (.block block)] ∧
        outcome.state = later.link ∧ later.link.time = .last ∧
        later.link.outstanding side = blocks := by
  obtain ⟨first, second, third⟩ := routes
  obtain ⟨doneOnce, timeOnce, laneOnce⟩ := history.confirm_last atLast side first
  generalize once : history.performed (.call first side .confirm) id = confirmed at *
  obtain ⟨doneTwice, timeTwice, laneTwice⟩ := confirmed.confirm_last timeOnce side second
  generalize twice : confirmed.performed (.call second side .confirm) id = free at *
  rw [Link.outstanding_eq_lane] at held
  obtain ⟨shown, rest⟩ := Lane.exists_arrived_released_twice held
  rw [laneOnce] at laneTwice
  rw [← laneTwice] at shown rest
  have settled : (free.link.lane side.peer).flow .last = free.link.lane side.peer := by
    rw [laneTwice, Lane.flow_released]
  rw [← settled] at shown
  obtain ⟨taken, timeLater, laneLater⟩ := free.read_last timeTwice side third shown
  have linkOnce : ((Link.perform (.call first side .confirm)).run history.link).state =
      confirmed.link := by
    rw [← once]
    rfl
  have linkTwice : ((Link.perform (.call second side .confirm)).run confirmed.link).state =
      free.link := by
    rw [← twice]
    rfl
  refine ⟨free.performed (.call third side .read) id, ?_⟩
  simp only [Operation.drainRound, Link.performAll, Step.run_bind, Step.run_pure, doneOnce,
    linkOnce, doneTwice, linkTwice, taken]
  refine ⟨trivial, rfl, timeLater, ?_⟩
  rw [Link.outstanding_eq_lane, laneLater, Lane.outstanding_flow, settled, rest]

theorem exists_drained (history : History) (atLast : history.link.time = .last) (side : Side)
    (rounds : List (Route × Route × Route))
    (enough : rounds.length ≤ (history.link.outstanding side).length) :
    ∃ later : History,
      let held := history.link.outstanding side
      let drained :=
        (Link.performAll (rounds.flatMap (Operation.drainRound side))).run history.link
      drained.value = (held.take rounds.length).flatMap
          (fun block => [.reply .done, .reply .done, .reply (.block block)]) ∧
        drained.state = later.link ∧ later.link.outstanding side = held.drop rounds.length := by
  induction rounds generalizing history with
  | nil => exact ⟨history, rfl, rfl, rfl⟩
  | cons routes rounds inductionHypothesis =>
    obtain ⟨block, blocks, held⟩ :=
      List.exists_cons_of_length_pos (Nat.lt_of_lt_of_le (Nat.zero_lt_succ _) enough)
    obtain ⟨middle, answered, reached, timeMiddle, left⟩ :=
      history.exists_drainRound atLast side routes held
    rw [held, List.length_cons, List.length_cons, ← left] at enough
    obtain ⟨later, answeredLater, reachedLater, leftLater⟩ :=
      inductionHypothesis middle timeMiddle (Nat.le_of_succ_le_succ enough)
    obtain ⟨value, state⟩ := Link.run_performAll_append (Operation.drainRound side routes)
      (rounds.flatMap (Operation.drainRound side)) history.link
    rw [reached] at value state
    refine ⟨later, ?_, ?_, ?_⟩
    · rw [List.flatMap_cons, value, answered, answeredLater, held, left]
      rfl
    · rw [List.flatMap_cons, state, reachedLater]
    · rw [leftLater, held, left]
      rfl

theorem refused_of_drained (history : History) {side : Side}
    (nothing : history.link.outstanding side = []) (route : Route) :
    ((Link.call route side .read).run history.link).value = .ok (.refused .unavailable) := by
  have charged : ((Link.charge.run history.link).state.lane side.peer).outstanding = [] := by
    rw [Link.lane_charge, Lane.outstanding_flow, ← Link.outstanding_eq_lane, nothing]
  have arrived : ((Link.charge.run history.link).state.lane side.peer).arrived = [] :=
    (List.append_eq_nil_iff.mp (List.map_eq_nil_iff.mp charged)).1
  rw [Link.value_callRead route side history.link (history.framed_charge side),
    Link.peek_eq_lane, Lane.peek, arrived]
  rfl

/-- However the boundaries hold it back, a receiver drains its direction by itself once the
clock stands at its end: as many rounds of two confirmations and a read as there are blocks
outstanding take all of them in order. -/
theorem drains_in_order (history : History) (side : Side) (rounds : List (Route × Route × Route))
    (enough : rounds.length ≤ (history.link.outstanding side).length) :
    let held := history.link.outstanding side
    let rested := ((Link.perform (.advance .last)).run history.link).state
    let drained := (Link.performAll (rounds.flatMap (Operation.drainRound side))).run rested
    drained.value = (held.take rounds.length).flatMap
      (fun block => [.reply .done, .reply .done, .reply (.block block)]) ∧
    drained.state.outstanding side = held.drop rounds.length ∧
    (rounds.length = held.length →
      (drained.state.station side).rx.entries = [] ∧
      (drained.state.station side.peer).tx.entries = [] ∧
      ∀ route, ((Link.call route side .read).run drained.state).value =
        .ok (.refused .unavailable)) := by
  intro held rested drained
  let resting := history.performed (.advance .last) id
  have atLast : resting.link.time = .last := Time.after_last history.link.time
  have same : resting.link.outstanding side = held := by
    rw [Link.outstanding_eq_lane]
    refine (congrArg Lane.outstanding (Link.lane_advance history.link .last side.peer)).trans ?_
    rw [Lane.outstanding_flow, ← Link.outstanding_eq_lane]
  obtain ⟨later, answered, reached, left⟩ :=
    resting.exists_drained atLast side rounds (same ▸ enough)
  rw [same] at answered left
  have reachedLater : drained.state = later.link := reached
  rw [reachedLater]
  refine ⟨answered, left, ?_⟩
  intro all
  have nothing : later.link.outstanding side = [] := by
    rw [left]
    exact List.drop_eq_nil_of_le (Nat.le_of_eq all.symm)
  obtain ⟨received, waiting⟩ := List.append_eq_nil_iff.mp nothing
  exact ⟨List.map_eq_nil_iff.mp received, List.map_eq_nil_iff.mp waiting,
    later.refused_of_drained nothing⟩

/-- A boundary behind an empty FIFO and a message end behind the boundary. -/
theorem drains_in_order_behind_boundary :
    let first : Block := ⟨1, 2, 3, 4⟩
    let second : Block := ⟨5, 6, 7, 8⟩
    let operations : List Operation :=
      [.call .direct .left .openMessage, .call .direct .left (.load first),
        .call .direct .right .read, .call .direct .left .closeMessage,
        .call .direct .left .openMessage, .call .direct .left (.load second),
        .call .direct .left .closeMessage]
    let history := (created {} (.idle {} 0) rfl).extended operations (by decide)
    let rested := ((Link.perform (.advance .last)).run history.link).state
    (history.link.station .right).rx.entries = [] ∧
    (history.link.station .right).boundaryPending = true ∧
    ((Link.performAll (Operation.drainRound .right (.direct, .registers, .direct))).run
      rested).value = [.reply .done, .reply .done, .reply (.block second)] := by
  intro first second operations history rested
  have held : history.link.outstanding .right = [second] := by decide +kernel
  obtain ⟨answered, -⟩ :=
    history.drains_in_order .right [(.direct, .registers, .direct)] (by rw [held]; decide)
  rw [held] at answered
  exact ⟨by decide +kernel, by decide +kernel, answered⟩

/-- One confirmation may let in what needs another. -/
example :
    ((Link.performAll
      [.call .direct .left .openMessage, .call .direct .left (.load ⟨1, 2, 3, 4⟩),
        .call .direct .right .read, .call .direct .left .closeMessage,
        .call .direct .left .openMessage, .call .direct .left (.load ⟨5, 6, 7, 8⟩),
        .call .direct .left .closeMessage, .advance .last, .call .direct .right .confirm,
        .call .direct .right .read]).run (.idle {} 0)).value.getLast? =
      some (.reply (.refused .blocked)) := by
  decide +kernel

end History

end BlockLink
