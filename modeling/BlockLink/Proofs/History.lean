import BlockLink.Proofs.Call
import BlockLink.Proofs.Run
import BlockLink.Proofs.Savestate

/-!
Links with a history that may go back through savestates.

A savestate replaces the content of one link by that of another, whose own history
then takes the place of the first. Whatever the lanes and the watermarks obey along
a history comes with the content and is not lost.
-/

namespace BlockLink

namespace Station

theorem peek_eq_unavailable_iff (station : Station) :
    station.peek = .error .unavailable ↔ station.rx.size = 0 := by
  cases shape : station.rx.entries with
  | nil => simp [peek, Fifo.oldest?, Fifo.size, shape]
  | cons entry rest =>
    cases held : entry.final && station.boundaryPending <;>
      simp [peek, Fifo.oldest?, Fifo.size, shape, held]

namespace Framed

variable {station : Station} (framed : station.Framed)
include framed

theorem countP_final_le : station.rx.entries.countP Entry.final ≤ 1 := by
  cases List.eq_nil_or_concat station.rx.entries with
  | inl isEmpty => simp [isEmpty]
  | inr shape =>
    obtain ⟨older, newest, shape⟩ := shape
    have single := framed.single
    rw [shape, List.concat_eq_append, List.dropLast_concat] at single
    have none : older.countP Entry.final = 0 := by
      rw [List.countP_eq_zero]
      intro entry member
      simp [single entry member]
    rw [shape, List.concat_eq_append, List.countP_append, none, Nat.zero_add]
    exact List.countP_le_length

theorem newest_of_pending (isPending : station.boundaryPending = true) :
    station.rx.entries = [] ∨ ∃ entry ∈ station.rx.entries.getLast?, entry.final = true := by
  cases newest : station.rx.entries.getLast? with
  | none => exact .inl (List.getLast?_eq_none_iff.mp newest)
  | some entry => exact .inr ⟨entry, rfl, framed.pending isPending entry newest⟩

theorem peek_eq_blocked_iff :
    station.peek = .error .blocked ↔ station.boundaryPending = true ∧ station.rx.size = 1 := by
  constructor
  · intro shown
    rcases refused_of_peek framed shown with isUnavailable | ⟨-, isPending, single⟩
    · cases isUnavailable
    · exact ⟨isPending, single⟩
  · rintro ⟨isPending, single⟩
    obtain ⟨entry, shape⟩ := List.length_eq_one_iff.mp single
    have final : entry.final = true := framed.pending isPending entry (by simp [shape])
    simp [peek, Fifo.oldest?, shape, final, isPending]

theorem peek_ok_iff :
    (∃ block, station.peek = .ok block) ↔
      station.rx.size ≠ 0 ∧ ¬ (station.boundaryPending = true ∧ station.rx.size = 1) := by
  rw [ne_eq, ← peek_eq_unavailable_iff, ← framed.peek_eq_blocked_iff]
  cases shown : station.peek with
  | ok block => simp
  | error refusal =>
    rcases refused_of_peek framed shown with rfl | ⟨rfl, -⟩ <;> simp

end Framed

end Station

/-- How a link came to hold what it holds. -/
inductive History where
  | created (config : Config) (start : Link) (accepted : Link.create config = .ok start)
  | performed (earlier : History) (operation : Operation) (fresh : ¬ operation.Restores)
  /-- A savestate of the second link was loaded into the first. -/
  | restored (earlier saved : History)

namespace History

def link : History → Link
  | created _ start _ => start
  | performed earlier operation _ => ((Link.perform operation).run earlier.link).state
  | restored earlier saved => ((Link.perform (.restore saved.link.save)).run earlier.link).state

theorem link_restored (earlier saved : History) :
    (restored earlier saved).link = { saved.link with config := earlier.link.config } := by
  rw [link, Link.perform, Step.run_bind, Link.run_restore_save]
  rfl

/-- The history with one more register access. -/
def charged (history : History) : History :=
  history.performed (.advance history.link.config.accessCycles) id

theorem link_charged (history : History) :
    history.charged.link = (Link.charge.run history.link).state := by
  rw [Link.run_charge]
  rfl

/-- The history with some operations more. -/
def extended : (history : History) → (operations : List Operation) →
    (∀ operation ∈ operations, ¬ operation.Restores) → History
  | history, [], _ => history
  | history, operation :: rest, fresh =>
    (history.performed operation (fresh operation (by simp))).extended rest
      fun later member => fresh later (by simp [member])

/-- Some log without a restore leads to what the link holds. -/
theorem follows (history : History) : ∃ log, history.link.Follows log := by
  induction history with
  | created config start accepted => exact ⟨[], .start accepted⟩
  | performed earlier operation fresh inductionHypothesis =>
    obtain ⟨log, follows⟩ := inductionHypothesis
    exact ⟨_, follows.step (Link.trace_law.perform operation fresh)⟩
  | restored earlier saved followsEarlier followsSaved =>
    obtain ⟨_, followsEarlier⟩ := followsEarlier
    obtain ⟨log, followsSaved⟩ := followsSaved
    rw [link_restored]
    exact ⟨log, followsEarlier.accepted, followsSaved.trace⟩

theorem watermarked (history : History) : history.link.Watermarked := by
  induction history with
  | created config start accepted => exact .created accepted
  | performed earlier operation fresh inductionHypothesis =>
    exact Link.watermarks_law.perform operation fresh earlier.link inductionHypothesis
  | restored earlier saved valid validSaved =>
    rw [link_restored]
    exact ⟨valid.1, validSaved.2⟩

variable (history : History) (side : Side)

theorem framed : (history.link.station side).Framed := by
  obtain ⟨log, follows⟩ := history.follows
  exact follows.framed side

theorem framed_charge : ((Link.charge.run history.link).state.station side).Framed := by
  rw [← link_charged]
  exact history.charged.framed side

/-- Only the newest received block can end a message, and it does while a boundary is pending.
So one STATUS word tells the driver what the model would answer to a read. -/
theorem receive_shape :
    let station := history.link.station side
    let answer := ((Link.read side).run history.link).value
    station.rx.entries.countP Entry.final ≤ 1 ∧
    (∀ entry ∈ station.rx.entries.dropLast, entry.final = false) ∧
    (station.boundaryPending = true →
      station.rx.entries = [] ∨ ∃ entry ∈ station.rx.entries.getLast?, entry.final = true) ∧
    (answer = .error .blocked ↔ station.boundaryPending = true ∧ station.rx.size = 1) ∧
    (answer = .error .unavailable ↔ station.rx.size = 0) ∧
    ((∃ block, answer = .ok block) ↔
      station.rx.size ≠ 0 ∧ ¬ (station.boundaryPending = true ∧ station.rx.size = 1)) ∧
    (Status.ofWord station.status.toWord).refusal? =
      (match answer with
      | .ok _ => none
      | .error refusal => some refusal) ∧
    ∀ route, ((Link.call route side .read).run history.link).value =
      .ok (.ofBlock ((Link.charge.run history.link).state.station side).peek) := by
  intro station answer
  have framed := history.framed side
  have same : answer = station.peek := Link.value_read side history.link
  rw [same, Station.ofWord_status]
  exact ⟨framed.countP_final_le, framed.single, framed.newest_of_pending,
    framed.peek_eq_blocked_iff, station.peek_eq_unavailable_iff, framed.peek_ok_iff,
    Station.refusal?_status framed,
    fun route => Link.value_callRead route side history.link (history.framed_charge side)⟩

end History

end BlockLink
