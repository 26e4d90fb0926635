import BlockLink.Text.DefaultIgnorable
import BlockLink.Text.GraphemeExtend
import BlockLink.Text.Hex
import BlockLink.Text.Unprintable

/-!
Quoted text: a string between double quotes in which every character is visible
and stands for itself alone.
-/

namespace BlockLink.Text.Quoted

/-- The halfwidth sound marks of kana extend the character in front of them, but are letters
with a place of their own. -/
def isHalfwidthMark (char : Char) : Bool :=
  0xFF9E ≤ char.toNat && char.toNat ≤ 0xFF9F

/-- Whether a character cannot be seen for itself behind any other one. -/
def isHidden (char : Char) : Bool :=
  isUnprintable char || isDefaultIgnorable char ||
    (isGraphemeExtend char && !isHalfwidthMark char)

/-- A character by its number, between braces. -/
def byNumber (char : Char) : List Char :=
  ['\\', 'u', '\x7b'] ++ Nat.toDigits 16 char.toNat ++ ['\x7d']

/-- The quoted form of one character. -/
def encodeChar (char : Char) : List Char :=
  match char with
  | '\x00' => ['\\', '0']
  | '\t' => ['\\', 't']
  | '\r' => ['\\', 'r']
  | '\n' => ['\\', 'n']
  | '\\' => ['\\', '\\']
  | '"' => ['\\', '"']
  | char => if isHidden char then byNumber char else [char]

/-- The text between quotes. -/
def quote (text : String) : String :=
  String.ofList (['"'] ++ text.toList.flatMap encodeChar ++ ['"'])

end BlockLink.Text.Quoted
