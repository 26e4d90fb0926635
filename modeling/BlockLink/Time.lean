import BlockLink.Numerals

/-!
The cycle clock. Time is a 64-bit cycle count that stops at its largest value
instead of wrapping, so it never runs backwards.
-/

namespace BlockLink

/-- A point on the cycle clock, or a number of cycles. -/
abbrev Time := UInt64

namespace Time

/-- The largest cycle count; the clock stays there. -/
def latest : Nat := 2 ^ 64 - 1

/-- The point `cycles` after `time`, held at the end of the clock. -/
def after (time cycles : Time) : Time :=
  UInt64.ofNat (min (time.toNat + cycles.toNat) latest)

/-- The cycles from `start` to `time`, none if `time` is the earlier one. -/
def since (time start : Time) : Time :=
  UInt64.ofNat (time.toNat - start.toNat)

theorem toNat_after (time cycles : Time) :
    (after time cycles).toNat = min (time.toNat + cycles.toNat) latest := by
  have small : min (time.toNat + cycles.toNat) latest < 2 ^ 64 := by
    unfold latest
    omega
  exact UInt64.toNat_ofNat_of_lt' small

theorem toNat_since (time start : Time) :
    (since time start).toNat = time.toNat - start.toNat := by
  have small : time.toNat - start.toNat < 2 ^ 64 :=
    Nat.lt_of_le_of_lt (Nat.sub_le ..) time.toNat_lt
  exact UInt64.toNat_ofNat_of_lt' small

theorem le_after (time cycles : Time) : time.toNat ≤ (after time cycles).toNat := by
  have bound := time.toNat_lt
  rw [toNat_after]
  unfold latest
  omega

theorem after_zero (time : Time) : time.after 0 = time := by
  have bound := time.toNat_lt
  apply UInt64.toNat_inj.mp
  rw [toNat_after, UInt64.toNat_zero, Nat.add_zero, latest]
  omega

end Time

end BlockLink
