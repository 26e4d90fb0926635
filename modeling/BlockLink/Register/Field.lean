import BlockLink.Numerals

/-!
Named fields of a 32-bit register word, and the ways to read and to replace one.
Bits outside the field are kept.
-/

namespace BlockLink

/-- A range of bits in a register word. -/
structure Field where
  /-- The register and the field, as fault reports name them. -/
  label : String
  /-- The position of the lowest bit. -/
  offset : Nat
  /-- The number of bits. -/
  width : Nat
deriving DecidableEq

/-- A condition that ends a call without an answer. -/
inductive Fault where
  /-- A value does not fit into the field that it was written to. -/
  | fieldOverflow (field : Field)
deriving DecidableEq

def Fault.message : Fault → String
  | fieldOverflow field => "value out of bounds for field " ++ field.label ++ ": OutOfBounds"

/-- The answer of a guarded assignment whose value does not fit. -/
structure OutOfBounds where
deriving DecidableEq

def OutOfBounds.message (_ : OutOfBounds) : String := "encountered an out of bounds value"

namespace Field

/-- The number of values that the field can hold. -/
def limit (field : Field) : Nat := 2 ^ field.width

/-- The value of the field in a word. -/
def get (field : Field) (word : UInt32) : Nat :=
  word.toNat / 2 ^ field.offset % field.limit

/-- Whether the field holds a value other than zero. -/
def isSet (field : Field) (word : UInt32) : Bool := field.get word ≠ 0

/-- The word with the field replaced by the low bits of `value`. -/
def put (field : Field) (word : UInt32) (value : Nat) : UInt32 :=
  UInt32.ofNat
    (word.toNat - field.get word * 2 ^ field.offset + value % field.limit * 2 ^ field.offset)

/-- Replace the field. A value that does not fit is a fault. -/
def assign (field : Field) (word : UInt32) (value : Nat) : Except Fault UInt32 :=
  if value < field.limit then .ok (field.put word value) else .error (.fieldOverflow field)

/-- Replace the field, or answer that the value does not fit. -/
def assignGuarded (field : Field) (word : UInt32) (value : Nat) : Except OutOfBounds UInt32 :=
  if value < field.limit then .ok (field.put word value) else .error {}

/-- The word that holds the given values in its fields and zero elsewhere. The fields are
meant to be disjoint. -/
def assemble (parts : List (Field × Nat)) : UInt32 :=
  UInt32.ofNat (parts.map fun part => part.2 % part.1.limit * 2 ^ part.1.offset).sum

end Field

end BlockLink
