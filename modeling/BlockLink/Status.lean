import BlockLink.Station

/-!
What an instance shows of itself: flags and fill levels. A status is always
computed from the instance, never stored with it.
-/

namespace BlockLink

/-- A condition of an instance that a caller may wait for. -/
inductive StatusFlag where
  | txFull
  | txEmpty
  /-- A message is open. -/
  | tx
  | txInputReady
  | rxFull
  | rxValid
  | rxLast
deriving DecidableEq

namespace StatusFlag

def label : StatusFlag → String
  | txFull => "TxFull"
  | txEmpty => "TxEmpty"
  | tx => "Tx"
  | txInputReady => "TxInputReady"
  | rxFull => "RxFull"
  | rxValid => "RxValid"
  | rxLast => "RxLast"

def all : List StatusFlag :=
  [txFull, txEmpty, tx, txInputReady, rxFull, rxValid, rxLast]

/-- The flag with a given label. -/
def ofLabel? (name : String) : Option StatusFlag :=
  all.find? fun flag => flag.label = name

end StatusFlag

/-- The observable status of one instance. -/
@[ext]
structure Status where
  txActive : Bool := false
  txFull : Bool := false
  txEmpty : Bool := false
  txInputReady : Bool := false
  rxFull : Bool := false
  rxValid : Bool := false
  rxLast : Bool := false
  txLevel : Nat := 0
  rxLevel : Nat := 0
deriving DecidableEq, Inhabited

namespace Status

def flag (status : Status) : StatusFlag → Bool
  | .txFull => status.txFull
  | .txEmpty => status.txEmpty
  | .tx => status.txActive
  | .txInputReady => status.txInputReady
  | .rxFull => status.rxFull
  | .rxValid => status.rxValid
  | .rxLast => status.rxLast

def level (status : Status) : Queue → Nat
  | .transmit => status.txLevel
  | .receive => status.rxLevel

/-- The free slots of a queue, as long as its level is one that a FIFO can have. -/
def free? (status : Status) (queue : Queue) : Option Nat :=
  if status.level queue ≤ Fifo.depth then some (Fifo.depth - status.level queue) else none

end Status

/-- The status that an instance shows. -/
def Station.status (station : Station) : Status where
  txActive := station.messageOpen
  txFull := station.tx.size = Fifo.depth
  txEmpty := station.tx.size = 0
  txInputReady := station.messageOpen && station.tx.size ≠ Fifo.depth
  rxFull := station.rx.size = Fifo.depth
  rxValid := 0 < station.rx.size
  rxLast := station.boundaryPending
  txLevel := station.tx.size
  rxLevel := station.rx.size

end BlockLink
