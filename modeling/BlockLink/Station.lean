import BlockLink.Config
import BlockLink.Fifo
import BlockLink.Refusal
import BlockLink.Step

/-!
One instance of the link: its two FIFOs, its watermarks and the framing of
messages. Everything here touches a single instance; entries move between
instances in the modules on the link.

A message is opened, loaded and closed by its sender. Its final block is marked,
and the receiver holds everything behind the mark until it has confirmed the
boundary and read the block.
-/

namespace BlockLink

/-- The flow-control state of one instance. -/
@[ext]
structure Station where
  tx : Fifo
  rx : Fifo
  txWatermark : UInt64
  rxWatermark : UInt64
  /-- Whether a message is open for loading. -/
  messageOpen : Bool
  /-- Whether the end of a message has arrived and is not confirmed yet. -/
  boundaryPending : Bool
  /-- Whether a block was loaded since the open message was opened. -/
  messageLoaded : Bool
deriving DecidableEq

namespace Station

/-- A change of the framing of one instance. -/
inductive Event where
  | messageOpened
  | messageClosed
  /-- A boundary was set behind the blocks that wait in the receive FIFO. -/
  | boundaryMarked (waiting : Nat)
  | boundaryConfirmed
  | finalArrived
deriving DecidableEq

/-- An instance with nothing queued, no message open and no boundary pending. -/
def idle (config : Config) : Station where
  tx := .empty
  rx := .empty
  txWatermark := config.txWatermark
  rxWatermark := config.rxWatermark
  messageOpen := false
  boundaryPending := false
  messageLoaded := false

def watermark (station : Station) : Queue → UInt64
  | .transmit => station.txWatermark
  | .receive => station.rxWatermark

def withWatermark (station : Station) (queue : Queue) (level : UInt64) : Station :=
  match queue with
  | .transmit => { station with txWatermark := level }
  | .receive => { station with rxWatermark := level }

/-- Replace a watermark, unless the level is out of range. -/
def setWatermark (queue : Queue) (level : UInt64) : Step Event Station (Except Refusal Unit) :=
  fun station =>
    if WatermarkValid level then ⟨.ok (), station.withWatermark queue level, []⟩
    else ⟨.error .invalidArgument, station, []⟩

/-- Open a message; an open one stays as it is. -/
def openMessage : Step Event Station Unit := fun station =>
  if station.messageOpen then ⟨(), station, []⟩
  else ⟨(), { station with messageOpen := true, messageLoaded := false }, [.messageOpened]⟩

/-- Close the open message. The answer tells whether the message holds a block, and so
needs a final one. -/
def closeMessage : Step Event Station Bool := fun station =>
  ⟨station.messageOpen && station.messageLoaded,
    { station with messageOpen := false, messageLoaded := false },
    if station.messageOpen then [.messageClosed] else []⟩

/-- Mark the newest block that waits for transmission as final. -/
def markNewestTx (station : Station) : Station :=
  { station with tx := station.tx.markNewest }

/-- The peer closed a message whose final block has already crossed. If the block still
waits here it is marked; if it was read, the pending boundary alone remains. -/
def markBoundary : Step Event Station Unit := fun station =>
  ⟨(), { station with rx := station.rx.markNewest, boundaryPending := true },
    [.boundaryMarked station.rx.size]⟩

/-- Confirm the pending boundary, if there is one. -/
def confirm : Step Event Station Unit := fun station =>
  if station.boundaryPending then
    ⟨(), { station with boundaryPending := false }, [.boundaryConfirmed]⟩
  else ⟨(), station, []⟩

/-- Queue a block for transmission, which may leave at `readyAt`. -/
def load (block : Block) (readyAt : Time) : Step Event Station (Except Refusal Unit) :=
  fun station =>
    if ready : station.messageOpen = true ∧ station.tx.HasRoom then
      let entry : Entry := { block, final := false, readyAt }
      ⟨.ok (), { station with tx := station.tx.push entry ready.2, messageLoaded := true }, []⟩
    else ⟨.error .unavailable, station, []⟩

/-- The oldest received block, if it may be read now. -/
def peek (station : Station) : Except Refusal Block :=
  match station.rx.oldest? with
  | none => .error .unavailable
  | some entry =>
    if entry.final && station.boundaryPending then .error .blocked else .ok entry.block

/-- The instance without its oldest received entry. Reading a final block settles the
boundary it carried. -/
def dropOldestRx (station : Station) : Station :=
  match station.rx.oldest? with
  | none => station
  | some entry =>
    { station with
      rx := station.rx.drop 1
      boundaryPending := station.boundaryPending && !entry.final }

/-- Read the oldest received block. -/
def read : Step Event Station (Except Refusal Block) := fun station =>
  match station.peek with
  | .ok block => ⟨.ok block, station.dropOldestRx, []⟩
  | .error refusal => ⟨.error refusal, station, []⟩

/-- Whether another entry may come in from the link: there is room for it, and no boundary
is waiting to be read or confirmed. -/
def CanAccept (station : Station) : Prop :=
  station.rx.HasRoom ∧ station.boundaryPending = false ∧ ¬ station.rx.HoldsFinal

instance (station : Station) : Decidable station.CanAccept :=
  inferInstanceAs (Decidable (_ ∧ _ ∧ _))

/-- Take an entry off the link. A final one makes its boundary pending. -/
def accept (station : Station) (entry : Entry) (able : station.CanAccept) : Station :=
  { station with
    rx := station.rx.push entry able.1
    boundaryPending := station.boundaryPending || entry.final }

/-- Take as many of the waiting entries, in order, as are ready and can be accepted. The
answer is their number and the receiver with those entries. -/
def intake (now : Time) : List Entry → Station → Nat × Station
  | [], receiver => (0, receiver)
  | entry :: rest, receiver =>
    if able : entry.readyAt ≤ now ∧ receiver.CanAccept then
      let (count, receiver) := intake now rest (receiver.accept entry able.2)
      (count + 1, receiver)
    else (0, receiver)

end Station

end BlockLink
