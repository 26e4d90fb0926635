/-!
Numbers in hexadecimal digits: written with upper-case letters, read with
either.
-/

namespace BlockLink.Text.Hex

/-- The digits of a number, without leading zeros. -/
def digits (number : Nat) : List Char :=
  (Nat.toDigits 16 number).map Char.toUpper

def plain (number : Nat) : String := String.ofList (digits number)

/-- The digits with zeros in front up to a least width. -/
def padded (width number : Nat) : String :=
  let shown := digits number
  String.ofList (List.replicate (width - shown.length) '0' ++ shown)

/-- The value of a digit. -/
def digit? (char : Char) : Option Nat :=
  if char.isDigit then some (char.toNat - '0'.toNat)
  else if 'a' ≤ char ∧ char ≤ 'f' then some (char.toNat - 'a'.toNat + 10)
  else if 'A' ≤ char ∧ char ≤ 'F' then some (char.toNat - 'A'.toNat + 10)
  else none

/-- The number written with the given digits, if all of them are digits. -/
def number? (digits : List Char) : Option Nat :=
  digits.foldlM (fun number digit => (digit? digit).map (number * 16 + ·)) 0

end BlockLink.Text.Hex
