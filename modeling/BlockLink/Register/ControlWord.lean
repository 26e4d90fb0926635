import BlockLink.Register.Field
import BlockLink.Station

/-!
The layout of the CTRL register: three pulses, which always read back as zero,
and the two watermarks.
-/

namespace BlockLink

namespace ControlWord

/-- Opens a message. -/
def txTrigger : Field := ⟨"ControlRegister.tx_trigger", 0, 1⟩

/-- Closes the open message. -/
def txEnd : Field := ⟨"ControlRegister.tx_end", 1, 1⟩

/-- Confirms the pending boundary. -/
def rxConfirm : Field := ⟨"ControlRegister.rx_confirm", 2, 1⟩

def txWatermark : Field := ⟨"ControlRegister.tx_watermark", 3, 2⟩
def rxWatermark : Field := ⟨"ControlRegister.rx_watermark", 5, 2⟩

def watermark : Queue → Field
  | .transmit => txWatermark
  | .receive => rxWatermark

def fields : List Field := [txTrigger, txEnd, rxConfirm, txWatermark, rxWatermark]

end ControlWord

/-- The word that a read of CTRL shows. Watermarks count modulo 256, and one that still does
not fit into its field is a fault, the transmit side first. -/
def Station.controlWord (station : Station) : Except Fault UInt32 := do
  let word ← ControlWord.txWatermark.assign 0 (station.txWatermark.toNat % 256)
  ControlWord.rxWatermark.assign word (station.rxWatermark.toNat % 256)

end BlockLink
