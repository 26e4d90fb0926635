/-!
Numbers read from decimal digits.
-/

namespace BlockLink.Text.Decimal

/-- The number written with the given digits; characters that are no digits do not belong
here. -/
def number (digits : List Char) : Nat :=
  digits.foldl (fun number digit => number * 10 + (digit.toNat - '0'.toNat)) 0

end BlockLink.Text.Decimal
