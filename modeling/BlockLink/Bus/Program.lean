import BlockLink.Event
import BlockLink.Register.Field

/-!
Programs that talk to the registers of an instance, and the buses that carry
out their accesses. A program is a finite tree: what it does next may depend on
the words it has read so far, and on nothing else.
-/

namespace BlockLink

/-- A sequence of register accesses that ends with an answer. -/
inductive Program (α : Type) where
  | answer (value : α)
  | read (address : UInt32) (next : UInt32 → Program α)
  | write (address word : UInt32) (next : Program α)

/-- A window of 32-bit registers, together with the time on its clock. -/
structure Bus (State : Type) where
  read : UInt32 → Step Event State (Except Fault UInt32)
  write : UInt32 → UInt32 → Step Event State Unit
  now : Step Event State Time

namespace Program

variable {α β State : Type}

def andThen : Program α → (α → Program β) → Program β
  | answer value, second => second value
  | read address next, second => read address fun word => (next word).andThen second
  | write address word next, second => write address word (next.andThen second)

instance : Monad Program where
  pure := answer
  bind := andThen

/-- Read one register. -/
def readWord (address : UInt32) : Program UInt32 := read address answer

/-- Write one register. -/
def writeWord (address word : UInt32) : Program Unit := write address word (answer ())

/-- Carry out the accesses on a bus. A fault of a read ends the program. -/
def run (bus : Bus State) : Program α → Step Event State (Except Fault α)
  | answer value => Step.done (.ok value)
  | read address next => do
    match ← bus.read address with
    | .ok word => (next word).run bus
    | .error fault => return .error fault
  | write address word next => do
    bus.write address word
    next.run bus

end Program

end BlockLink
