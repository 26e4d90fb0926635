import BlockLink.Link.Basic

/-!
The calls on one side of a link that go to the model directly. Each of them is
charged one register access before it takes effect; the clock is read for free.
-/

namespace BlockLink.Endpoint

variable (side : Side)

def setWatermark (queue : Queue) (level : UInt64) : Step Event Link (Except Refusal Unit) := do
  Link.charge
  Link.setWatermark side queue level

def openMessage : Step Event Link Unit := do
  Link.charge
  Link.openMessage side

def closeMessage : Step Event Link Unit := do
  Link.charge
  Link.closeMessage side

def confirm : Step Event Link Unit := do
  Link.charge
  Link.confirm side

def load (block : Block) : Step Event Link (Except Refusal Unit) := do
  Link.charge
  Link.load side block

def read : Step Event Link (Except Refusal Block) := do
  Link.charge
  Link.read side

def status : Step Event Link Status := do
  Link.charge
  Step.observe fun link => link.status side

def now : Step Event Link Time :=
  Step.observe fun link => link.time

end BlockLink.Endpoint
