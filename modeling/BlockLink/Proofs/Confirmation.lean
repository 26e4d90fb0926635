import BlockLink.Proofs.Effect
import BlockLink.Proofs.History

/-!
Boundaries that are confirmed more than once.

To confirm a boundary takes the obstacle away behind which the peer's next message waits,
and what can cross then does so at once. If that takes the next message to its end, another
boundary is pending when the call returns, and the call that repeats it confirms this one.
In every other case the repetition changes nothing, and no third call ever does.
-/

namespace BlockLink

namespace Lane

variable {lane : Lane} {now : Time}

/-- Whether a confirmation releases a message up to its end: nothing is left of the message
before, and all that waits of the next one is due. -/
structure Releases (now : Time) (message : List Entry) (ending : Entry) (lane : Lane) : Prop where
  pending : lane.isPending = true
  consumed : lane.arrived = []
  sent : message ++ [ending] <+: lane.waiting
  due : ∀ entry ∈ message ++ [ending], entry.readyAt ≤ now
  inner : ∀ entry ∈ message, entry.final = false
  final : ending.final = true

/-- A message crosses to its end if it is due and has room. -/
theorem flowOf_message {message rest : List Entry} {ending : Entry}
    (due : ∀ entry ∈ message ++ [ending], entry.readyAt ≤ now)
    (inner : ∀ entry ∈ message, entry.final = false) (final : ending.final = true)
    (isClear : lane.isPending = false) (noFinal : ¬ lane.HoldsFinal)
    (room : lane.arrived.length + message.length < Fifo.depth) :
    flowOf now (message ++ ending :: rest) lane =
      { lane with
        waiting := rest
        arrived := lane.arrived ++ message ++ [ending]
        isPending := true } := by
  induction message generalizing lane with
  | nil =>
    have able : ending.readyAt ≤ now ∧ lane.CanAccept :=
      ⟨due ending (by simp), room, isClear, noFinal⟩
    have holds : { lane.accept ending with waiting := rest }.HoldsFinal :=
      ⟨ending, by simp [accept], final⟩
    have stays := flow_of_holdsFinal holds now
    rw [flow, flowOf_withWaiting] at stays
    rw [List.nil_append, flowOf_of_able able, stays]
    simp [accept, final]
  | cons entry message inductionHypothesis =>
    have isInner : entry.final = false := inner entry (by simp)
    have able : entry.readyAt ≤ now ∧ lane.CanAccept :=
      ⟨due entry (by simp), Nat.lt_of_le_of_lt (Nat.le_add_right ..) room, isClear, noFinal⟩
    have stillNoFinal : ¬ (lane.accept entry).HoldsFinal := by
      rintro ⟨held, member, isFinal⟩
      rcases List.mem_append.mp member with before | new
      · exact noFinal ⟨held, before, isFinal⟩
      · rw [List.mem_singleton.mp new, isInner] at isFinal
        cases isFinal
    have stillRoom : (lane.accept entry).arrived.length + message.length < Fifo.depth := by
      simp only [accept, List.length_append, List.length_cons, List.length_nil] at room ⊢
      omega
    rw [List.cons_append, flowOf_of_able able, inductionHypothesis
      (fun other member => due other (by simp_all)) (fun other member => inner other (by simp_all))
      isInner stillNoFinal stillRoom]
    simp [accept]

/-- A delivery that makes a boundary pending takes a message to its end. -/
theorem exists_message_of_flowOf {entries : List Entry} (isClear : lane.isPending = false)
    (isPending : (flowOf now entries lane).isPending = true) :
    ∃ message ending, message ++ [ending] <+: entries ∧
      (∀ entry ∈ message ++ [ending], entry.readyAt ≤ now) ∧
      (∀ entry ∈ message, entry.final = false) ∧ ending.final = true := by
  induction entries generalizing lane with
  | nil =>
    rw [flowOf, isClear] at isPending
    cases isPending
  | cons entry rest inductionHypothesis =>
    by_cases able : entry.readyAt ≤ now ∧ lane.CanAccept
    · cases final : entry.final with
      | true => exact ⟨[], entry, by simp, by simpa using able.1, by simp, final⟩
      | false =>
        rw [flowOf_of_able able] at isPending
        have stillClear : (lane.accept entry).isPending = false := final
        obtain ⟨message, ending, sent, due, inner, isEnding⟩ :=
          inductionHypothesis stillClear isPending
        refine ⟨entry :: message, ending, ?_, ?_, ?_, isEnding⟩
        · exact List.cons_prefix_cons.mpr ⟨rfl, sent⟩
        · simpa [able.1] using due
        · simpa [final] using inner
    · rw [flowOf_of_unable able, isClear] at isPending
      cases isPending

/-- What has crossed when a confirmation has released a message. -/
theorem Releases.receive_confirm {message : List Entry} {ending : Entry}
    (releases : lane.Releases now message ending) (fits : lane.waiting.length ≤ Fifo.depth) :
    (lane.receive now .confirm).arrived = message ++ [ending] ∧
      (lane.receive now .confirm).isPending = true := by
  obtain ⟨rest, shape⟩ := releases.sent
  have waiting : lane.waiting = message ++ ending :: rest := by simp [← shape]
  have room : lane.arrived.length + message.length < Fifo.depth := by
    simp only [waiting, List.length_append, List.length_cons] at fits
    simp only [releases.consumed, List.length_nil]
    omega
  have isClear : lane.confirmed.isPending = false := rfl
  have noFinal : ¬ lane.confirmed.HoldsFinal := by
    simp [HoldsFinal, confirmed, releases.consumed]
  have delivered : lane.receive now .confirm = flowOf now lane.waiting lane.confirmed := rfl
  rw [delivered, waiting,
    flowOf_message releases.due releases.inner releases.final isClear noFinal room]
  simp [confirmed, releases.consumed]

/-- A confirmation behind which another boundary is pending has released a message. -/
theorem exists_releases (settled : lane.Settled now)
    (framed : lane.isPending = true → lane.arrived = [] ∨ lane.HoldsFinal)
    (isPending : (lane.receive now .confirm).isPending = true) :
    ∃ message ending, lane.Releases now message ending := by
  cases wasPending : lane.isPending with
  | false =>
    rw [receive, confirmed_of_clear wasPending, flow_of_settled settled, wasPending] at isPending
    cases isPending
  | true =>
    rcases framed wasPending with consumed | holds
    · have isClear : lane.confirmed.isPending = false := rfl
      obtain ⟨message, ending, sent, due, inner, final⟩ :=
        exists_message_of_flowOf isClear isPending
      exact ⟨message, ending, wasPending, consumed, sent, due, inner, final⟩
    · have stillHolds : lane.confirmed.HoldsFinal := holds
      rw [receive, flow_of_holdsFinal stillHolds] at isPending
      cases isPending

end Lane

namespace Link

variable (link : Link) (side : Side)

theorem arrived_lane_peer : (link.lane side.peer).arrived = (link.station side).rx.entries := by
  rw [lane_peer]
  rfl

theorem lane_withoutBoundary_self : (link.withoutBoundary side).lane side = link.lane side := by
  rw [withoutBoundary, lane_withStation_self]
  rfl

theorem lane_withoutBoundary_peer :
    (link.withoutBoundary side).lane side.peer = (link.lane side.peer).confirmed := by
  rw [withoutBoundary, lane_withStation_peer, lane_peer]
  rfl

variable {link side}

theorem withoutBoundary_of_clear (isClear : (link.station side).boundaryPending = false) :
    link.withoutBoundary side = link := by
  have same : { link.station side with boundaryPending := false } = link.station side := by
    rw [← isClear]
  rw [withoutBoundary, same, withStation_self]

variable (link side)

/-- The second of two confirmations in a row clears the boundary and does nothing else. -/
theorem state_confirm_confirm :
    let once := ((confirm side).run link).state
    ((confirm side).run once).state = once.withoutBoundary side := by
  intro once
  have sending : once.lane side = (link.lane side).flow link.time := lane_confirm_self link side
  have receiving : once.lane side.peer = (link.lane side.peer).receive link.time .confirm :=
    lane_confirm_peer link side
  apply eq_of_lanes ((aside_withoutBoundary once side).symm.trans (aside_confirm once side))
  · intro sender
    rcases Side.self_or_peer side sender with rfl | rfl
    · rw [lane_confirm_self, lane_withoutBoundary_self, time_confirm, sending,
        Lane.flow_flow (UInt64.le_refl _)]
    · rw [lane_withoutBoundary_peer, receiving, ← Lane.receive_confirm_confirm, ← receiving]
      exact lane_confirm_peer once side
  · rfl

/-- A third confirmation in a row finds nothing to clear and nothing that could cross. -/
theorem state_confirm_confirm_confirm :
    let once := ((confirm side).run link).state
    let twice := ((confirm side).run once).state
    ((confirm side).run twice).state = twice := by
  intro once twice
  have isClear : (twice.station side).boundaryPending = false := by
    have cleared : twice = once.withoutBoundary side := state_confirm_confirm link side
    rw [cleared, withoutBoundary, station_withStation_self]
  exact (state_confirm_confirm once side).trans (withoutBoundary_of_clear isClear)

variable {link}

/-- Where an access takes no time, it lets nothing cross that had not crossed before. -/
theorem state_charges_of_free (settled : link.Settled) (free : link.config.accessCycles = 0)
    (count : Nat) : ((charges count).run link).state = link := by
  have time : (charge.run link).state.time = link.time := by
    rw [run_charge, free]
    exact Time.after_zero link.time
  have charged : (charge.run link).state = link := by
    refine eq_of_lanes (aside_law.charge link) (fun sender => ?_) time
    rw [lane_charge, time, Lane.flow_of_settled (settled sender)]
  induction count with
  | zero => rfl
  | succ count inductionHypothesis => rw [state_charges_succ, charged, inductionHypothesis]

/-- Where an access takes no time, a call confirms and does nothing else. -/
theorem state_callConfirm_of_free (settled : link.Settled) (free : link.config.accessCycles = 0)
    (valid : (link.station side).Watermarked) (route : Route) :
    ((call route side .confirm).run link).state = ((confirm side).run link).state := by
  rw [run_callPulse route side link .confirm rfl valid]
  dsimp only
  rw [state_charges_of_free settled free]
  rfl

end Link

namespace History

theorem settled (history : History) : history.link.Settled := by
  induction history with
  | created config start accepted =>
    obtain ⟨-, rfl⟩ := Link.create_eq_ok_iff.mp accepted
    exact Link.settled_idle config 0
  | performed earlier operation fresh inductionHypothesis =>
    exact Link.settled_law.perform operation fresh earlier.link inductionHypothesis
  | restored earlier saved settledEarlier settledSaved =>
    rw [link_restored]
    exact settledSaved

variable (history : History) (side : Side)

/-- The history with one more confirmation of a side. -/
def confirming (route : Route) : History := history.performed (.call route side .confirm) id

section Free

variable {history} (free : history.link.config.accessCycles = 0)
include free

theorem link_confirming (route : Route) :
    (history.confirming side route).link = ((Link.confirm side).run history.link).state :=
  Link.state_callConfirm_of_free side history.settled free (history.watermarked.2 side) route

theorem free_confirming (route : Route) :
    (history.confirming side route).link.config.accessCycles = 0 := by
  rw [link_confirming side free, (Link.aside_confirm history.link side).config, free]

end Free

/-- Another boundary is pending behind a confirmation if and only if it has released a message. -/
theorem pending_confirm_iff :
    (((Link.confirm side).run history.link).state.station side).boundaryPending = true ↔
      ∃ message ending,
        (history.link.lane side.peer).Releases history.link.time message ending := by
  have received := Link.lane_confirm_peer history.link side
  have shown : (((Link.confirm side).run history.link).state.station side).boundaryPending =
      ((history.link.lane side.peer).receive history.link.time .confirm).isPending := by
    rw [Lane.receive, ← received, Link.lane_peer]
    rfl
  rw [shown]
  constructor
  · refine Lane.exists_releases (history.settled side.peer) fun isPending => ?_
    rw [Link.lane_peer] at isPending ⊢
    rcases (history.framed side).newest_of_pending isPending with consumed | ⟨entry, newest, final⟩
    · exact .inl consumed
    · exact .inr ⟨entry, List.mem_of_getLast? newest, final⟩
  · rintro ⟨message, ending, releases⟩
    exact (releases.receive_confirm (history.link.station side.peer).tx.size_le).2

/-- Where an access takes no time, a second confirmation in a row clears the boundary that the
first may have left and does nothing else. It clears one if and only if the first has released
a message up to its end, of which nothing had crossed before. A third one does nothing. -/
theorem confirm_again (free : history.link.config.accessCycles = 0)
    (first second third : Route) :
    let start := history.link
    let once := ((Link.call first side .confirm).run start).state
    let twice := ((Link.call second side .confirm).run once).state
    let thrice := ((Link.call third side .confirm).run twice).state
    let released := (start.lane side.peer).Releases start.time
    (twice.stations = once.stations ↔ ¬ ∃ message ending, released message ending) ∧
    (∀ message ending, released message ending →
      (start.station side).rx.entries = [] ∧
      (once.station side).rx.entries = message ++ [ending] ∧
      (once.station side).boundaryPending = true ∧
      (twice.station side).boundaryPending = false) ∧
    twice = once.withoutBoundary side ∧
    thrice = twice := by
  intro start once twice thrice released
  have freeOnce := free_confirming side free first
  have freeTwice := free_confirming side freeOnce second
  have linkOnce : once = ((Link.confirm side).run start).state := link_confirming side free first
  have linkTwice : twice = ((Link.confirm side).run once).state :=
    link_confirming side freeOnce second
  have linkThrice : thrice = ((Link.confirm side).run twice).state :=
    link_confirming side freeTwice third
  have cleared : twice = once.withoutBoundary side := by
    rw [linkTwice, linkOnce]
    exact Link.state_confirm_confirm start side
  have isClear : (twice.station side).boundaryPending = false := by
    rw [cleared, Link.withoutBoundary, Link.station_withStation_self]
  have pendingIff : (once.station side).boundaryPending = true ↔
      ∃ message ending, released message ending := by
    rw [linkOnce]
    exact history.pending_confirm_iff side
  refine ⟨⟨fun same isReleased => ?_, fun unreleased => ?_⟩,
    fun message ending releases => ⟨?_, ?_, ?_, isClear⟩, cleared, ?_⟩
  · have sameStation : twice.station side = once.station side :=
      congrArg (fun stations => stations.get side) same
    rw [sameStation, pendingIff.mpr isReleased] at isClear
    cases isClear
  · have wasClear : (once.station side).boundaryPending = false :=
      Bool.eq_false_iff.mpr fun isPending => unreleased (pendingIff.mp isPending)
    rw [cleared, Link.withoutBoundary_of_clear wasClear]
  · rw [← Link.arrived_lane_peer]
    exact releases.consumed
  · rw [← Link.arrived_lane_peer, linkOnce, Link.lane_confirm_peer]
    exact (releases.receive_confirm (start.station side.peer).tx.size_le).1
  · exact pendingIff.mpr ⟨message, ending, releases⟩
  · rw [linkThrice, linkTwice, linkOnce]
    exact Link.state_confirm_confirm_confirm start side

/-- The receiver has read all that it was sent when the boundary behind it arrives, and the next
message is complete by then. -/
theorem confirm_again_acknowledges_unseen :
    let history := (created { accessCycles := 0 } (.idle { accessCycles := 0 } 0) rfl).extended
      [.call .direct .left .openMessage, .call .direct .left (.load ⟨1, 2, 3, 4⟩),
        .call .direct .right .read, .call .direct .left .closeMessage,
        .call .direct .left .openMessage, .call .direct .left (.load ⟨5, 6, 7, 8⟩),
        .call .direct .left .closeMessage] (by decide)
    let once := ((Link.call .direct .right .confirm).run history.link).state
    let twice := ((Link.call .direct .right .confirm).run once).state
    history.link.config.accessCycles = 0 ∧
    (history.link.station .right).rx.entries = [] ∧
    (once.station .right).rx.blocks = [⟨5, 6, 7, 8⟩] ∧
    (once.station .right).boundaryPending = true ∧
    twice.stations ≠ once.stations ∧
    (twice.station .right).boundaryPending = false := by
  decide +kernel

theorem confirm_again_behind_two_blocks :
    let first : Block := ⟨5, 6, 7, 8⟩
    let second : Block := ⟨9, 10, 11, 12⟩
    let history := (created { accessCycles := 0 } (.idle { accessCycles := 0 } 0) rfl).extended
      [.call .direct .left .openMessage, .call .direct .left (.load ⟨1, 2, 3, 4⟩),
        .call .direct .right .read, .call .direct .left .closeMessage,
        .call .registers .left .openMessage, .call .registers .left (.load first),
        .call .registers .left (.load second), .call .registers .left .closeMessage] (by decide)
    let once := ((Link.call .registers .right .confirm).run history.link).state
    let twice := ((Link.call .direct .right .confirm).run once).state
    history.link.config.accessCycles = 0 ∧
    (once.station .right).rx.blocks = [first, second] ∧
    twice = once.withoutBoundary .right ∧
    twice.stations ≠ once.stations := by
  intro first second history once twice
  have free : history.link.config.accessCycles = 0 := by decide +kernel
  obtain ⟨same, released, cleared, -⟩ := history.confirm_again .right free .registers .direct .direct
  have releases : (history.link.lane Side.right.peer).Releases history.link.time
      [{ block := first, final := false, readyAt := 0 }]
      { block := second, final := true, readyAt := 0 } := by
    constructor <;> decide +kernel
  obtain ⟨-, received, -⟩ := released _ _ releases
  have shown : (once.station .right).rx.blocks = [first, second] := by
    rw [Fifo.blocks, received]
    rfl
  have changed : twice.stations ≠ once.stations := by
    intro unchanged
    dsimp only [twice, once] at unchanged
    exact same.mp unchanged ⟨_, _, releases⟩
  exact ⟨free, shown, cleared, changed⟩

end History

end BlockLink
