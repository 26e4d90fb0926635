import BlockLink.Link.Basic
import BlockLink.Register
import BlockLink.Register.ControlWord
import BlockLink.Register.StatusWord

/-!
The register window of each side of a link. Every access is charged, whatever
its address. Writing the last word of the write window loads the staged block,
and reading the last word of the read window consumes the block it shows.
-/

namespace BlockLink.Link

variable (side : Side)

/-- Read STATUS. -/
def readStatus : Step Event Link UInt32 := do
  charge
  Step.observe fun link => (link.status side).toWord

/-- Read CTRL, which shows the watermarks. -/
def readControl : Step Event Link (Except Fault UInt32) := do
  charge
  Step.observe fun link => (link.station side).controlWord

/-- The word that the read window shows, or zero with a warning. -/
def showData (position : Fin 4) (shown : Except Refusal Block) : Step Event Link UInt32 :=
  match shown with
  | .ok block => Step.done (block.word position)
  | .error refusal => do
    Step.report (.windowUnreadable side refusal)
    return 0

/-- Read a word of the oldest received block. The last word consumes the block. -/
def readData (position : Fin 4) : Step Event Link UInt32 := do
  charge
  let shown ←
    if position = 3 then read side
    else Step.observe fun link => (link.station side).peek
  showData side position shown

/-- Read a 32-bit register. -/
def readRegister (address : UInt32) : Step Event Link (Except Fault UInt32) :=
  match Register.ofAddress? address with
  | some .status => .ok <$> readStatus side
  | some .control => readControl side
  | some (.readData position) => .ok <$> readData side position
  | some (.writeData _) => blank (.writeOnlyRead side address)
  | some .interruptState | some .interruptEnable | some .interruptTest | some .alertTest =>
    blank (.interruptRead side address)
  | none => blank (.unknownRead side address)
where
  /-- Answer zero and report why. -/
  blank (event : Event) : Step Event Link (Except Fault UInt32) := do
    charge
    Step.report event
    return .ok 0

/-- Set one watermark from its field in a control word. A level that is out of range is
ignored with a warning. -/
def writeWatermark (queue : Queue) (word : UInt32) : Step Event Link Unit := do
  let level := (ControlWord.watermark queue).get word
  match ← setWatermark side queue (UInt64.ofNat level) with
  | .ok () => Step.skip
  | .error _ => Step.report (.watermarkIgnored side queue level)

/-- Write CTRL. A message is closed before one is opened, so one word can do both. -/
def writeControl (word : UInt32) : Step Event Link Unit := do
  charge
  writeWatermark side .transmit word
  writeWatermark side .receive word
  if ControlWord.txEnd.isSet word then closeMessage side
  if ControlWord.txTrigger.isSet word then openMessage side
  if ControlWord.rxConfirm.isSet word then confirm side

/-- Keep a word for the block that is being put together. -/
def stage (position : Fin 4) (word : UInt32) : Step Event Link Unit :=
  Step.update fun link =>
    { link with staged := link.staged.set side ((link.staged.get side).setWord word position) }

/-- Load the staged block. A block that cannot be loaded is dropped with a warning. -/
def commit : Step Event Link Unit := do
  let block ← Step.observe fun link => link.staged.get side
  match ← load side block with
  | .ok () => Step.skip
  | .error refusal => Step.report (.blockDropped side refusal)

/-- Write a word of the block to be loaded. The last word loads the block. -/
def writeData (position : Fin 4) (word : UInt32) : Step Event Link Unit := do
  charge
  stage side position word
  if position = 3 then commit side

/-- Write a 32-bit register. -/
def writeRegister (address word : UInt32) : Step Event Link Unit :=
  match Register.ofAddress? address with
  | some .control => writeControl side word
  | some (.writeData position) => writeData side position word
  | some .status | some (.readData _) => ignore (.readOnlyWrite side address)
  | some .interruptState | some .interruptEnable | some .interruptTest | some .alertTest =>
    ignore (.interruptWrite side address)
  | none => ignore (.unknownWrite side address word)
where
  /-- Change nothing and report why. -/
  ignore (event : Event) : Step Event Link Unit := do
    charge
    Step.report event

end BlockLink.Link
