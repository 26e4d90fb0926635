import BlockLink.Register.Field
import BlockLink.Status

/-!
The layout of the STATUS register. A level field is wider than a FIFO is deep,
so levels are held at the depth in both directions.
-/

namespace BlockLink

namespace StatusWord

def tx : Field := ⟨"StatusRegister.tx", 0, 1⟩
def txFull : Field := ⟨"StatusRegister.tx_full", 1, 1⟩
def rxFull : Field := ⟨"StatusRegister.rx_full", 2, 1⟩
def txEmpty : Field := ⟨"StatusRegister.tx_empty", 3, 1⟩
def txInputReady : Field := ⟨"StatusRegister.tx_input_ready", 4, 1⟩
def rxValid : Field := ⟨"StatusRegister.rx_valid", 5, 1⟩
def txLevel : Field := ⟨"StatusRegister.tx_level", 6, 3⟩
def rxLevel : Field := ⟨"StatusRegister.rx_level", 9, 3⟩
def rxLast : Field := ⟨"StatusRegister.rx_last", 12, 1⟩

def fields : List Field :=
  [tx, txFull, rxFull, txEmpty, txInputReady, rxValid, txLevel, rxLevel, rxLast]

end StatusWord

namespace Status

/-- The STATUS word that shows a status. -/
def toWord (status : Status) : UInt32 :=
  Field.assemble
    [(StatusWord.tx, status.txActive.toNat),
      (StatusWord.txFull, status.txFull.toNat),
      (StatusWord.rxFull, status.rxFull.toNat),
      (StatusWord.txEmpty, status.txEmpty.toNat),
      (StatusWord.txInputReady, status.txInputReady.toNat),
      (StatusWord.rxValid, status.rxValid.toNat),
      (StatusWord.txLevel, min status.txLevel Fifo.depth),
      (StatusWord.rxLevel, min status.rxLevel Fifo.depth),
      (StatusWord.rxLast, status.rxLast.toNat)]

/-- The status that a STATUS word shows. -/
def ofWord (word : UInt32) : Status where
  txActive := StatusWord.tx.isSet word
  txFull := StatusWord.txFull.isSet word
  txEmpty := StatusWord.txEmpty.isSet word
  txInputReady := StatusWord.txInputReady.isSet word
  rxFull := StatusWord.rxFull.isSet word
  rxValid := StatusWord.rxValid.isSet word
  rxLast := StatusWord.rxLast.isSet word
  txLevel := min (StatusWord.txLevel.get word) Fifo.depth
  rxLevel := min (StatusWord.rxLevel.get word) Fifo.depth

end Status

end BlockLink
