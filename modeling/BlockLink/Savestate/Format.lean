import BlockLink.Numerals

/-!
Binary formats: a writer and a reader of the same type, put together from small
ones. Numbers are little endian and of fixed width, and a reader answers the
value together with the bytes that it left.
-/

namespace BlockLink.Savestate

/-- Why bytes were rejected, at the first offence from the front. -/
inductive Malformed where
  | unexpectedEnd
  /-- A truth value is neither 0 nor 1. -/
  | invalidBool (byte : UInt8)
  /-- A sequence holds more elements than its FIFO. -/
  | overlongFifo
  /-- The index names no case of the type. -/
  | invalidVariant (index : UInt32)
deriving DecidableEq

/-- The text of an error behind the common introduction. -/
def Malformed.reason : Malformed → String
  | unexpectedEnd => "io error: unexpected end of file"
  | invalidBool byte =>
    "invalid u8 while decoding bool, expected 0 or 1, found " ++ Nat.repr byte.toNat
  | overlongFifo => "invalid length 5, expected an array with no more than 4 items"
  | invalidVariant index =>
    "invalid value: integer `" ++ Nat.repr index.toNat ++
      "`, expected variant index 0 <= i < 2"

def Malformed.message (malformed : Malformed) : String :=
  "failed to decode savestate: " ++ malformed.reason

/-- A way to write values as bytes and to read them back. -/
structure Format (α : Type) where
  write : α → List UInt8
  /-- The value at the front, and the bytes behind it. -/
  read : List UInt8 → Except Malformed (α × List UInt8)

namespace Format

variable {α β : Type}

/-- A single byte. -/
def byte : Format UInt8 where
  write value := [value]
  read
    | [] => .error .unexpectedEnd
    | value :: rest => .ok (value, rest)

/-- One value behind the other. -/
def pair (first : Format α) (second : Format β) : Format (α × β) where
  write value := first.write value.1 ++ second.write value.2
  read bytes := do
    let (value1, rest) ← first.read bytes
    let (value2, rest) ← second.read rest
    return ((value1, value2), rest)

/-- The same bytes for another view of the value. -/
def view (format : Format α) (wrap : α → β) (unwrap : β → α) : Format β where
  write value := format.write (unwrap value)
  read bytes := do
    let (value, rest) ← format.read bytes
    return (wrap value, rest)

/-- The same bytes for a type with fewer values. -/
def refine (format : Format α) (wrap : α → Except Malformed β) (unwrap : β → α) :
    Format β where
  write value := format.write (unwrap value)
  read bytes := do
    let (value, rest) ← format.read bytes
    let value ← wrap value
    return (value, rest)

/-- A natural number below `256 ^ width`, as `width` bytes. -/
def natural : (width : Nat) → Format Nat
  | 0 => { write := fun _ => [], read := fun bytes => .ok (0, bytes) }
  | width + 1 =>
    (byte.pair (natural width)).view
      (fun (low, high) => low.toNat + 256 * high)
      (fun value => (UInt8.ofNat value, value / 256))

def word32 : Format UInt32 :=
  (natural 4).view UInt32.ofNat UInt32.toNat

def word64 : Format UInt64 :=
  (natural 8).view UInt64.ofNat UInt64.toNat

/-- A truth value is the byte 0 or 1, and no other. -/
def bool : Format Bool :=
  byte.refine
    (fun
      | 0 => .ok false
      | 1 => .ok true
      | value => .error (.invalidBool value))
    (fun
      | false => 0
      | true => 1)

/-- The elements of a sequence one behind the other, without their number. -/
def writeAll (format : Format α) (values : List α) : List UInt8 :=
  values.flatMap format.write

/-- Read a given number of elements. -/
def readAll (format : Format α) : Nat → List UInt8 → Except Malformed (List α × List UInt8)
  | 0, bytes => .ok ([], bytes)
  | count + 1, bytes => do
    let (value, rest) ← format.read bytes
    let (values, rest) ← readAll format count rest
    return (value :: values, rest)

end Format

end BlockLink.Savestate
