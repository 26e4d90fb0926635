import BlockLink.Side
import BlockLink.Status
import BlockLink.Text.Hex

/-!
Everything that an operation on the link reports, and the log record of each
report.
-/

namespace BlockLink

/-- How much attention a log record asks for. -/
inductive Severity where
  | warn
  | info
  | debug
  | trace
deriving DecidableEq

def Severity.label : Severity → String
  | warn => "WARN"
  | info => "INFO"
  | debug => "DEBUG"
  | trace => "TRACE"

/-- Something that happened on the link. -/
inductive Event where
  /-- The framing of one instance changed. -/
  | station (side : Side) (event : Station.Event)
  | loaded (side : Side) (block : Block)
  /-- A block moved from the sender to its peer. -/
  | crossed (sender : Side) (block : Block)
  | read (side : Side) (block : Block)
  | linkReset
  /-- One half of a status was asked to be logged. -/
  | reported (label : String) (queue : Queue) (status : Status)
  | waitTimedOut (flag : StatusFlag) (expected : Bool) (elapsed : Time)
  /-- A control write held a watermark that is out of range. -/
  | watermarkIgnored (side : Side) (queue : Queue) (level : Nat)
  /-- The write that completes a block came when the block could not be loaded. -/
  | blockDropped (side : Side) (refusal : Refusal)
  /-- The data window was read while no block could be read. -/
  | windowUnreadable (side : Side) (refusal : Refusal)
  | interruptRead (side : Side) (address : UInt32)
  | writeOnlyRead (side : Side) (address : UInt32)
  | unknownRead (side : Side) (address : UInt32)
  | interruptWrite (side : Side) (address : UInt32)
  | readOnlyWrite (side : Side) (address : UInt32)
  | unknownWrite (side : Side) (address : UInt32) (value : UInt32)
deriving DecidableEq

/-- The text of a truth value in logs. -/
def boolText : Bool → String
  | true => "true"
  | false => "false"

/-- The words of a block in logs. -/
def Block.text (block : Block) : String :=
  "Block([" ++ ", ".intercalate (block.toList.map fun word => Text.Hex.plain word.toNat) ++ "])"

namespace Station.Event

def text : Station.Event → String
  | messageOpened => "CMOD message opened"
  | messageClosed => "CMOD message closed"
  | boundaryMarked waiting =>
    "CMOD last block pending (" ++ Nat.repr waiting ++ " in RX)"
  | boundaryConfirmed => "CMOD last block confirmed"
  | finalArrived => "CMOD final block arrived"

end Station.Event

/-- One half of a status in logs. -/
def Status.text (status : Status) (queue : Queue) : String :=
  let parts := match queue with
    | .transmit =>
      [("active", status.txActive.toNat), ("full", status.txFull.toNat),
        ("empty", status.txEmpty.toNat), ("input_ready", status.txInputReady.toNat),
        ("level", status.txLevel)]
    | .receive =>
      [("full", status.rxFull.toNat), ("valid", status.rxValid.toNat),
        ("last", status.rxLast.toNat), ("level", status.rxLevel)]
  queue.label ++ ": " ++ " ".intercalate (parts.map fun part => part.1 ++ "=" ++ Nat.repr part.2)

namespace Event

def severity : Event → Severity
  | station .. | waitTimedOut .. => .debug
  | loaded .. | crossed .. | read .. => .trace
  | linkReset | reported .. | interruptRead .. | interruptWrite .. => .info
  | watermarkIgnored .. | blockDropped .. | windowUnreadable .. | writeOnlyRead ..
  | unknownRead .. | readOnlyWrite .. | unknownWrite .. => .warn

/-- A register address in logs. -/
def addressText (address : UInt32) : String := "0x" ++ Text.Hex.padded 2 address.toNat

def text : Event → String
  | station _ event => event.text
  | loaded side block => side.label ++ " loaded " ++ block.text
  | crossed sender block =>
    sender.label ++ " -> " ++ sender.peer.label ++ ": " ++ block.text
  | read side block => side.label ++ " read " ++ block.text
  | linkReset => "Resetting CMOD link"
  | reported label queue status => label ++ " " ++ status.text queue
  | waitTimedOut flag expected elapsed =>
    "Timed out waiting for " ++ flag.label ++ " == " ++ boolText expected ++ " after " ++
      Nat.repr elapsed.toNat ++ " cycles"
  | watermarkIgnored side queue level =>
    side.label ++ " invalid " ++ queue.label ++ " watermark " ++ Nat.repr level ++ ", ignoring"
  | blockDropped side refusal =>
    side.label ++ " dropped block written to WDATA: " ++ refusal.message
  | windowUnreadable side refusal =>
    side.label ++ " read RDATA while no block is readable: " ++ refusal.message
  | interruptRead side address =>
    side.label ++ " read from unmodeled interrupt register " ++ addressText address
  | writeOnlyRead side address =>
    side.label ++ " read from write-only register " ++ addressText address
  | unknownRead side address =>
    side.label ++ " read from unknown register " ++ addressText address
  | interruptWrite side address =>
    side.label ++ " write to unmodeled interrupt register " ++ addressText address
  | readOnlyWrite side address =>
    side.label ++ " write to read-only register " ++ addressText address ++ ", ignoring"
  | unknownWrite side address value =>
    side.label ++ " write to unknown register " ++ addressText address ++ ": 0x" ++
      Text.Hex.padded 8 value.toNat

/-- The log record of an event: its severity and its text. -/
def record (event : Event) : String := event.severity.label ++ " " ++ event.text

end Event

/-- The reports of both halves of a status, the transmit side first. -/
def Status.reports (status : Status) (label : String) : List Event :=
  [.reported label .transmit status, .reported label .receive status]

end BlockLink
