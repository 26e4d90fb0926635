import BlockLink.Document.Number
import BlockLink.Text.Decimal
import BlockLink.Text.Hex

/-!
Reading a document from its text. Every reader takes the characters from its
place on and answers a value with the characters behind it.
-/

namespace BlockLink.Document

def isBlank (char : Char) : Bool :=
  char = ' ' || char = '\t' || char = '\n' || char = '\r'

def skipBlanks (text : List Char) : List Char := text.dropWhile isBlank

/-- The character of a single-letter escape. -/
def escaped? : Char → Option Char
  | '"' => some '"'
  | '\\' => some '\\'
  | '/' => some '/'
  | 'b' => some '\x08'
  | 'f' => some '\x0c'
  | 'n' => some '\n'
  | 'r' => some '\r'
  | 't' => some '\t'
  | _ => none

/-- The character of two surrogate halves. -/
def joinSurrogates (high low : Nat) : Char :=
  Char.ofNat (0x10000 + (high - 0xD800) * 0x400 + (low - 0xDC00))

/-- Read the rest of a string whose opening quote is gone. The characters so far are
carried along, the newest first. -/
def readString (read : List Char) : List Char → Option (String × List Char)
  | [] => none
  | '"' :: rest => some (String.ofList read.reverse, rest)
  | '\\' :: 'u' :: a :: b :: c :: d :: '\\' :: 'u' :: e :: f :: g :: h :: rest => do
    let first ← Text.Hex.number? [a, b, c, d]
    let second ← Text.Hex.number? [e, f, g, h]
    if 0xD800 ≤ first ∧ first < 0xDC00 then
      readString (joinSurrogates first second :: read) rest
    else readString (Char.ofNat first :: read) ('\\' :: 'u' :: e :: f :: g :: h :: rest)
  | '\\' :: 'u' :: a :: b :: c :: d :: rest => do
    let unit ← Text.Hex.number? [a, b, c, d]
    readString (Char.ofNat unit :: read) rest
  | '\\' :: char :: rest => do
    let char ← escaped? char
    readString (char :: read) rest
  | char :: rest => readString (char :: read) rest
termination_by text => text.length

/-- Split off a sign, which is read as the answer whether the number is negative. -/
def readSign : List Char → Bool × List Char
  | '-' :: rest => (true, rest)
  | '+' :: rest => (false, rest)
  | text => (false, text)

/-- Split off decimal digits. -/
def readDigits (text : List Char) : List Char × List Char :=
  (text.takeWhile Char.isDigit, text.dropWhile Char.isDigit)

def readFraction : List Char → List Char × List Char
  | '.' :: rest => readDigits rest
  | text => ([], text)

def readExponent (text : List Char) : Option Int × List Char :=
  match text with
  | mark :: rest =>
    if mark = 'e' ∨ mark = 'E' then
      let (negative, rest) := readSign rest
      let (digits, rest) := readDigits rest
      let size : Int := Text.Decimal.number digits
      (some (if negative then -size else size), rest)
    else (none, text)
  | [] => (none, [])

def readNumber (text : List Char) : Option (Document × List Char) := do
  let (negative, rest) := readSign text
  let (whole, rest) := readDigits rest
  let (fraction, rest) := readFraction rest
  let (exponent, rest) := readExponent rest
  let value ← if whole.isEmpty then none else number? negative whole fraction exponent
  some (value, rest)

mutual

/-- Read a value. The first argument bounds the characters that are left. -/
def readValue : Nat → List Char → Option (Document × List Char)
  | 0, _ => none
  | bound + 1, text =>
    match skipBlanks text with
    | 'n' :: 'u' :: 'l' :: 'l' :: rest => some (null, rest)
    | 't' :: 'r' :: 'u' :: 'e' :: rest => some (bool true, rest)
    | 'f' :: 'a' :: 'l' :: 's' :: 'e' :: rest => some (bool false, rest)
    | '"' :: rest => (readString [] rest).map fun (value, rest) => (string value, rest)
    | '[' :: rest =>
      match skipBlanks rest with
      | ']' :: rest => some (list [], rest)
      | rest => readElements bound [] rest
    | '\x7b' :: rest =>
      match skipBlanks rest with
      | '\x7d' :: rest => some (record [], rest)
      | rest => readFields bound [] rest
    | text => readNumber text

/-- Read the elements of a list up to its end. Those read so far are the newest first. -/
def readElements : Nat → List Document → List Char → Option (Document × List Char)
  | 0, _, _ => none
  | bound + 1, read, text => do
    let (element, rest) ← readValue bound text
    match skipBlanks rest with
    | ',' :: rest => readElements bound (element :: read) rest
    | ']' :: rest => some (list (element :: read).reverse, rest)
    | _ => none

/-- Read the fields of a record up to its end. -/
def readFields : Nat → List (String × Document) → List Char → Option (Document × List Char)
  | 0, _, _ => none
  | bound + 1, read, text =>
    match skipBlanks text with
    | '"' :: rest => do
      let (name, rest) ← readString [] rest
      match skipBlanks rest with
      | ':' :: rest => do
        let (value, rest) ← readValue bound rest
        let read := insertField read name value
        match skipBlanks rest with
        | ',' :: rest => readFields bound read rest
        | '\x7d' :: rest => some (record read, rest)
        | _ => none
      | _ => none
    | _ => none

end

/-- The document that a text holds, with nothing but blanks behind it. -/
def parse (text : String) : Option Document := do
  let chars := text.toList
  let (document, rest) ← readValue (chars.length + 1) chars
  if (skipBlanks rest).isEmpty then some document else none

end BlockLink.Document
