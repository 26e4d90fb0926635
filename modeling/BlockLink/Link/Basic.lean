import BlockLink.Event

/-!
Two instances joined by a duplex link, and the clock that they share. Blocks
cross from one transmit FIFO into the receive FIFO of the peer whenever time
passes or an instance changes. A block that the peer cannot accept stays where
it is.
-/

namespace BlockLink

/-- What changes on a link: the instances, the words staged for loading, and the time. -/
@[ext]
structure Snapshot where
  stations : PerSide Station
  /-- The last words written to the write window of each side. -/
  staged : PerSide Block
  time : Time
deriving DecidableEq

/-- A link with the settings it was created with. -/
@[ext]
structure Link extends Snapshot where
  config : Config
deriving DecidableEq

namespace Link

/-- A link at a given time, with idle instances. -/
def idle (config : Config) (time : Time) : Link where
  stations := .both (.idle config)
  staged := .both .zero
  time
  config

/-- A new link, unless a watermark of the settings is out of range. -/
def create (config : Config) : Except Refusal Link :=
  if config.Accepted then .ok (idle config 0) else .error .invalidArgument

def station (link : Link) (side : Side) : Station := link.stations.get side

def withStation (link : Link) (side : Side) (station : Station) : Link :=
  { link with stations := link.stations.set side station }

def status (link : Link) (side : Side) : Status := (link.station side).status

/-- Carry out a step of one instance. -/
def atStation {α : Type} (side : Side) (step : Step Station.Event Station α) :
    Step Event Link α := fun link =>
  let outcome := step.run (link.station side)
  ⟨outcome.value, link.withStation side outcome.state, outcome.events.map (.station side)⟩

/-- The events of an entry that crosses from `sender` to its peer. -/
def crossing (sender : Side) (entry : Entry) : List Event :=
  .crossed sender entry.block ::
    if entry.final then [.station sender.peer .finalArrived] else []

/-- Move the entries that are ready and acceptable from one side to the other. -/
def deliver (sender : Side) : Step Event Link Unit := fun link =>
  let source := link.station sender
  let (count, receiver) := Station.intake link.time source.tx.entries (link.station sender.peer)
  let remaining := { source with tx := source.tx.drop count }
  ⟨(), (link.withStation sender remaining).withStation sender.peer receiver,
    (source.tx.entries.take count).flatMap (crossing sender)⟩

/-- Deliver in both directions. -/
def settle : Step Event Link Unit := do
  deliver .left
  deliver .right

/-- Let time pass, and deliver what becomes ready. -/
def advance (cycles : Time) : Step Event Link Unit := do
  Step.update fun link => { link with time := link.time.after cycles }
  settle

/-- Charge one register access. -/
def charge : Step Event Link Unit := fun link => advance link.config.accessCycles link

/-- Return both instances to their initial state. Settings and time are kept. With settings
that no link is created with, the link is left as it is. -/
def reset : Step Event Link Unit := fun link =>
  match create link.config with
  | .ok fresh => ⟨(), { fresh with time := link.time }, [.linkReset]⟩
  | .error _ => ⟨(), link, [.linkReset]⟩

/-- Log the status of one side. -/
def reportStatus (side : Side) : Step Event Link Unit := fun link =>
  ⟨(), link, (link.status side).reports side.label⟩

def setWatermark (side : Side) (queue : Queue) (level : UInt64) :
    Step Event Link (Except Refusal Unit) :=
  atStation side (Station.setWatermark queue level)

def openMessage (side : Side) : Step Event Link Unit :=
  atStation side Station.openMessage

/-- Place the end of the message that `side` has closed: on the newest block that still
waits for transmission, or else at the peer. -/
def placeBoundary (side : Side) : Step Event Link Unit := fun link =>
  let source := link.station side
  if source.tx.size = 0 then atStation side.peer Station.markBoundary link
  else ⟨(), link.withStation side source.markNewestTx, []⟩

/-- Close the message of a side. A message without blocks has no boundary. -/
def closeMessage (side : Side) : Step Event Link Unit := do
  let hasBlocks ← atStation side Station.closeMessage
  if hasBlocks then placeBoundary side
  settle

/-- Confirm the boundary that is pending on a side. -/
def confirm (side : Side) : Step Event Link Unit := do
  atStation side Station.confirm
  settle

/-- Queue a block for transmission. It may cross once the latency of the link has passed. -/
def load (side : Side) (block : Block) : Step Event Link (Except Refusal Unit) := do
  let readyAt ← Step.observe fun link => link.time.after link.config.linkLatency
  match ← atStation side (Station.load block readyAt) with
  | .ok () =>
    Step.report (.loaded side block)
    settle
    return .ok ()
  | .error refusal => return .error refusal

/-- Read the oldest received block. -/
def read (side : Side) : Step Event Link (Except Refusal Block) := do
  match ← atStation side Station.read with
  | .ok block =>
    Step.report (.read side block)
    settle
    return .ok block
  | .error refusal => return .error refusal

end Link

end BlockLink
