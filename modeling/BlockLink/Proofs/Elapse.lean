import BlockLink.Proofs.Effect

/-!
Time that passes in parts.

A delivery lets cross what is due and fits. What it leaves behind is held up by its stamp or
by the receiver, and passing time lifts the first obstacle only. So it makes no difference
at which points of a stretch of time deliveries take place, as long as one takes place at
its end.
-/

namespace BlockLink

namespace Time

/-- Several stretches of time together, held at the end of the clock. -/
def total (delays : List Time) : Time := .ofNat (min (delays.map UInt64.toNat).sum latest)

theorem toNat_total (delays : List Time) :
    (total delays).toNat = min (delays.map UInt64.toNat).sum latest := by
  apply UInt64.toNat_ofNat_of_lt'
  exact Nat.lt_of_le_of_lt (Nat.min_le_right ..) (by decide)

theorem total_cons (delay : Time) (delays : List Time) :
    total (delay :: delays) = delay.after (total delays) := by
  apply UInt64.toNat_inj.mp
  simp only [toNat_after, toNat_total, List.map_cons, List.sum_cons]
  omega

theorem total_singleton (delay : Time) : total [delay] = delay := by
  rw [total_cons]
  exact after_zero delay

/-- The clock stops at the same point whether it is held there once or twice. -/
theorem after_after (time first second : Time) :
    (time.after first).after second = time.after (first.after second) := by
  apply UInt64.toNat_inj.mp
  simp only [toNat_after]
  omega

end Time

namespace Link

variable (link : Link)

theorem time_advance (cycles : Time) :
    ((advance cycles).run link).state.time = link.time.after cycles :=
  rfl

/-- What the first of two deliveries lets cross, the second one would let cross as well. -/
theorem lane_advance_advance (first second : Time) (sender : Side) :
    ((advance second).run ((advance first).run link).state).state.lane sender =
      ((advance (first.after second)).run link).state.lane sender := by
  have notLater : link.time.after first ≤ (link.time.after first).after second :=
    UInt64.le_iff_toNat_le.mpr (Time.le_after _ _)
  rw [lane_advance, lane_advance, lane_advance, time_advance, Lane.flow_flow notLater,
    Time.after_after]

theorem state_advance_advance (first second : Time) :
    ((advance second).run ((advance first).run link).state).state =
      ((advance (first.after second)).run link).state := by
  have once := aside_law.advance (first.after second) link
  have twice := (aside_law.advance first link).trans (aside_law.advance second _)
  apply eq_of_lanes (once.symm.trans twice) (lane_advance_advance link first second)
  rw [time_advance, time_advance, time_advance, Time.after_after]

theorem state_performAll_cons (operation : Operation) (rest : List Operation) :
    ((performAll (operation :: rest)).run link).state =
      ((performAll rest).run ((perform operation).run link).state).state :=
  rfl

theorem state_perform_advance (cycles : Time) :
    ((perform (.advance cycles)).run link).state = ((advance cycles).run link).state :=
  rfl

theorem state_performAll_advance (first : Time) (rest : List Time) :
    ((performAll ((first :: rest).map .advance)).run link).state =
      ((advance (Time.total (first :: rest))).run link).state := by
  induction rest generalizing first link with
  | nil =>
    rw [List.map_singleton, state_performAll_cons, state_perform_advance, Time.total_singleton]
    rfl
  | cons second rest inductionHypothesis =>
    rw [List.map_cons, state_performAll_cons, state_perform_advance, inductionHypothesis,
      state_advance_advance, ← Time.total_cons]

/-- However a stretch of time is cut into parts, the link comes out as if it had passed at
once. This holds for any link, whether or not something was left behind on it that could have
crossed before, and also where the clock comes to its end. -/
theorem advance_in_parts :
    (∀ first second : Time,
      ((advance second).run ((advance first).run link).state).state =
        ((advance (.ofNat (min (first.toNat + second.toNat) Time.latest))).run link).state) ∧
    ((advance 0).run ((advance 0).run link).state).state = ((advance 0).run link).state ∧
    ∀ (first : Time) (rest : List Time),
      ((performAll ((first :: rest).map .advance)).run link).state =
        ((advance (Time.total (first :: rest))).run link).state :=
  ⟨state_advance_advance link, state_advance_advance link 0 0, state_performAll_advance link⟩

end Link

end BlockLink
