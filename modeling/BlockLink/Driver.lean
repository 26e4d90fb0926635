import BlockLink.Bus.Program
import BlockLink.Register
import BlockLink.Register.ControlWord
import BlockLink.Register.StatusWord
import BlockLink.Watch

/-!
The register driver: the calls on an instance as sequences of register accesses.
It decides from one STATUS word, and changes CTRL by reading it and writing it
back with a single field replaced.
-/

namespace BlockLink.Driver

/-- Read the raw STATUS word. -/
def statusWord : Program UInt32 := Program.readWord Register.status.address

def status : Program Status := do
  let word ← statusWord
  return Status.ofWord word

/-- Replace one field of CTRL. -/
def updateControl (field : Field) (value : Nat) : Program Unit := do
  let word ← Program.readWord Register.control.address
  Program.writeWord Register.control.address (field.put word value)

/-- Replace a watermark. A level that is out of range touches no register. -/
def setWatermark (queue : Queue) (level : UInt64) : Program (Except Refusal Unit) :=
  if WatermarkValid level then do
    updateControl (ControlWord.watermark queue) level.toNat
    return .ok ()
  else return .error .invalidArgument

def openMessage : Program Unit := updateControl ControlWord.txTrigger 1

def closeMessage : Program Unit := updateControl ControlWord.txEnd 1

def confirm : Program Unit := updateControl ControlWord.rxConfirm 1

/-- Write the four words of a block, if the instance is ready for them. -/
def load (block : Block) : Program (Except Refusal Unit) := do
  let status ← status
  if status.txInputReady then
    Program.writeWord (Register.writeData 0).address block.word0
    Program.writeWord (Register.writeData 1).address block.word1
    Program.writeWord (Register.writeData 2).address block.word2
    Program.writeWord (Register.writeData 3).address block.word3
    return .ok ()
  else return .error .unavailable

/-- Read the four words of the oldest received block. Nothing arrives behind a boundary that
is not confirmed, so the final block is the oldest one exactly when it is the only one. -/
def read : Program (Except Refusal Block) := do
  let status ← status
  if !status.rxValid then return .error .unavailable
  else if status.rxLast && status.rxLevel == 1 then return .error .blocked
  else
    let word0 ← Program.readWord (Register.readData 0).address
    let word1 ← Program.readWord (Register.readData 1).address
    let word2 ← Program.readWord (Register.readData 2).address
    let word3 ← Program.readWord (Register.readData 3).address
    return .ok ⟨word0, word1, word2, word3⟩

/-- Waiting on the status that a bus shows. -/
def watch {State : Type} (bus : Bus State) : Watch State where
  status := status.run bus
  now := bus.now

end BlockLink.Driver
