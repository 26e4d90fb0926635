/-!
How numbers are written. A numeral, a power or a sum of natural numbers means the same in
every module, whatever other instances the libraries bring that a module imports.
-/

namespace BlockLink

/-- The power of natural numbers that runs. -/
@[default_instance 20000]
instance (priority := 20000) naturalPower : Pow Nat Nat := instPowNat

/-- Where sums of natural numbers start. -/
instance (priority := 20000) naturalZero : Zero Nat := Zero.ofOfNat0

/-- The positions in a block are written as numerals. -/
instance positionNumeral : @NeZero Nat Zero.ofOfNat0 4 := Nat.instNeZeroSucc

end BlockLink
