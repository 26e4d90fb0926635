import BlockLink.Block

/-!
The registers of one instance and their addresses, relative to the base of the
instance.
-/

namespace BlockLink

/-- A register of an instance. -/
inductive Register where
  | interruptState
  | interruptEnable
  | interruptTest
  | alertTest
  | control
  | status
  /-- A word of the block to be loaded. -/
  | writeData (position : Fin 4)
  /-- A word of the block to be read. -/
  | readData (position : Fin 4)
deriving DecidableEq

namespace Register

def address : Register → UInt32
  | interruptState => 0x00
  | interruptEnable => 0x04
  | interruptTest => 0x08
  | alertTest => 0x0C
  | control => 0x10
  | status => 0x14
  | writeData 0 => 0x18
  | writeData 1 => 0x1C
  | writeData 2 => 0x20
  | writeData 3 => 0x24
  | readData 0 => 0x28
  | readData 1 => 0x2C
  | readData 2 => 0x30
  | readData 3 => 0x34

/-- The register at an address. -/
def ofAddress? (address : UInt32) : Option Register :=
  match address.toNat with
  | 0x00 => some interruptState
  | 0x04 => some interruptEnable
  | 0x08 => some interruptTest
  | 0x0C => some alertTest
  | 0x10 => some control
  | 0x14 => some status
  | 0x18 => some (writeData 0)
  | 0x1C => some (writeData 1)
  | 0x20 => some (writeData 2)
  | 0x24 => some (writeData 3)
  | 0x28 => some (readData 0)
  | 0x2C => some (readData 1)
  | 0x30 => some (readData 2)
  | 0x34 => some (readData 3)
  | _ => none

theorem ofAddress?_address (register : Register) : ofAddress? register.address = some register := by
  match register with
  | interruptState | interruptEnable | interruptTest | alertTest | control | status => rfl
  | writeData 0 | writeData 1 | writeData 2 | writeData 3 => rfl
  | readData 0 | readData 1 | readData 2 | readData 3 => rfl

end Register

end BlockLink
