import BlockLink.Numerals
import BlockLink.Document

/-!
Numbers of a document. A number keeps its leading digits as long as they fit
into 64 bits, and the digits behind them count for their places alone.

A number without point and exponent is whole if all its digits were kept and it
fits into 64 bits, with or without a sign. Any other number, and a zero with a
minus sign, is a float. A float is rounded more than once: its digits become a
float first, which is then scaled by a power of ten.
-/

namespace BlockLink.Document

/-- Append digits to a coefficient as long as it fits into 64 bits. The answer is the
coefficient and how many digits are left over. -/
def keepDigits (coefficient : Nat) : List Char → Nat × Nat
  | [] => (coefficient, 0)
  | digit :: rest =>
    let longer := coefficient * 10 + (digit.toNat - '0'.toNat)
    if longer < 2 ^ 64 then keepDigits longer rest else (coefficient, rest.length + 1)

/-- The power of ten nearest to `10 ^ power`. -/
def powerOfTen (power : Nat) : Float := Float.ofScientific 1 false power

/-- The largest power of ten that is a float. -/
def largestPower : Nat := 308

/-- Divide by a power of ten, by parts if that power is no float itself. -/
def scaleDown (value : Float) (power : Nat) : Float :=
  if power ≤ largestPower then value / powerOfTen power
  else if value == 0 then value
  else scaleDown (value / powerOfTen largestPower) (power - largestPower)
termination_by power
decreasing_by
  unfold largestPower at *
  omega

/-- The float for `coefficient * 10 ^ exponent`, unless it is out of range. -/
def scaled? (coefficient : UInt64) (exponent : Int) : Option Float :=
  let value := coefficient.toFloat
  if coefficient = 0 then some value
  else if exponent < 0 then some (scaleDown value exponent.natAbs)
  else if exponent.toNat ≤ largestPower then
    let product := value * powerOfTen exponent.toNat
    if product.isFinite then some product else none
  else none

/-- The value of a number given by its sign, its digits before and behind the point, and its
exponent. -/
def number? (negative : Bool) (whole fraction : List Char) (exponent : Option Int) :
    Option Document :=
  let (kept, overWhole) := keepDigits 0 whole
  let isWhole := fraction.isEmpty && exponent.isNone && overWhole = 0
  if isWhole && !negative then some (integer kept)
  else if isWhole && 0 < kept && kept ≤ 2 ^ 63 then some (integer (-kept))
  else
    let (kept, overFraction) := keepDigits kept fraction
    let places : Int := overWhole - (fraction.length - overFraction) + exponent.getD 0
    (scaled? (UInt64.ofNat kept) places).map fun value =>
      .float (if negative then -value else value)

end BlockLink.Document
