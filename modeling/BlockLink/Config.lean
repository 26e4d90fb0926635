import BlockLink.Time

/-!
The settings a link is created with, and the range of watermarks it accepts.
-/

namespace BlockLink

/-- The two FIFOs of an instance. -/
inductive Queue where
  | transmit
  | receive
deriving DecidableEq

/-- The name of the queue in logs. -/
def Queue.label : Queue → String
  | .transmit => "TX"
  | .receive => "RX"

/-- A watermark lies strictly between an empty and a full FIFO. -/
def WatermarkValid (level : UInt64) : Prop := 1 ≤ level.toNat ∧ level.toNat < 4

instance (level : UInt64) : Decidable (WatermarkValid level) :=
  inferInstanceAs (Decidable (_ ∧ _))

/-- Settings of a link. The watermarks may change later, the rest may not. -/
structure Config where
  /-- The transmit watermark that both instances start with. -/
  txWatermark : UInt64 := 1
  /-- The receive watermark that both instances start with. -/
  rxWatermark : UInt64 := 1
  /-- The cycles that a loaded block needs before it can reach the peer. -/
  linkLatency : Time := 0
  /-- The cycles charged for every register access. -/
  accessCycles : Time := 1
  /-- Whether savestates are meant to be compressed. Their bytes are plain either way. -/
  compressSavestates : Bool := false
deriving DecidableEq

instance : Inhabited Config := ⟨{}⟩

namespace Config

/-- Whether a link can be created with these settings. -/
def Accepted (config : Config) : Prop :=
  WatermarkValid config.txWatermark ∧ WatermarkValid config.rxWatermark

instance (config : Config) : Decidable config.Accepted :=
  inferInstanceAs (Decidable (_ ∧ _))

end Config

end BlockLink
