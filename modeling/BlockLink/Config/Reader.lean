import BlockLink.Config
import BlockLink.Document
import BlockLink.Text.Quoted
import BlockLink.Text.Shortest

/-!
Reading settings from a document. A record may leave out any field and may hold
others; a list gives the fields in their order and may stop early. Whether the
watermarks are in range is not asked here.
-/

namespace BlockLink.Config

/-- What is expected at a place of the document. -/
inductive Expected where
  | level
  | cycles
  | bool
  | settings
deriving DecidableEq

def Expected.text : Expected → String
  | level => "usize"
  | cycles => "u64"
  | bool => "a boolean"
  | settings => "struct CmodConfig"

/-- Why a document holds no settings. -/
inductive Rejection where
  | wrongType (found : Document) (expected : Expected)
  | negative (found : Int) (expected : Expected)
  /-- A list has more elements than there are fields. -/
  | overlong (size : Nat)

/-- Text between grave accents, which mark quoted values. -/
def accented (text : String) : String := "`" ++ text ++ "`"

def integerText (value : Int) : String :=
  "integer " ++ accented (if value < 0 then "-" ++ Nat.repr value.natAbs else Nat.repr value.toNat)

/-- The name of a value in a rejection. -/
def foundText : Document → String
  | .null => "null"
  | .bool value => "boolean " ++ accented (if value then "true" else "false")
  | .integer value => integerText value
  | .float value => "floating point " ++ accented (Text.Shortest.text value)
  | .string value => "string " ++ Text.Quoted.quote value
  | .list _ => "sequence"
  | .record _ => "map"

def Rejection.message : Rejection → String
  | wrongType found expected =>
    "invalid type: " ++ foundText found ++ ", expected " ++ expected.text
  | negative found expected =>
    "invalid value: " ++ integerText found ++ ", expected " ++ expected.text
  | overlong size =>
    "invalid length " ++ Nat.repr size ++ ", expected fewer elements in array"

/-- A count of at most 64 bits. -/
def readCount (expected : Expected) : Document → Except Rejection UInt64
  | .integer value =>
    if value < 0 then .error (.negative value expected) else .ok (UInt64.ofNat value.toNat)
  | found => .error (.wrongType found expected)

def readBool : Document → Except Rejection Bool
  | .bool value => .ok value
  | found => .error (.wrongType found .bool)

/-- A field of the settings. -/
inductive Setting where
  | txWatermark
  | rxWatermark
  | linkLatency
  | accessCycles
  | compressSavestates
deriving DecidableEq

namespace Setting

def name : Setting → String
  | txWatermark => "tx_watermark"
  | rxWatermark => "rx_watermark"
  | linkLatency => "link_latency"
  | accessCycles => "access_cycles"
  | compressSavestates => "compress_savestates"

/-- The fields in the order of a list. -/
def inOrder : List Setting :=
  [txWatermark, rxWatermark, linkLatency, accessCycles, compressSavestates]

/-- The fields in the alphabetical order of their names, in which a record is read. -/
def byName : List Setting :=
  [accessCycles, compressSavestates, linkLatency, rxWatermark, txWatermark]

/-- Set the field to what a document holds. -/
def apply (setting : Setting) (config : Config) (value : Document) :
    Except Rejection Config :=
  match setting with
  | txWatermark => do return { config with txWatermark := ← readCount .level value }
  | rxWatermark => do return { config with rxWatermark := ← readCount .level value }
  | linkLatency => do return { config with linkLatency := ← readCount .cycles value }
  | accessCycles => do return { config with accessCycles := ← readCount .cycles value }
  | compressSavestates => do return { config with compressSavestates := ← readBool value }

end Setting

/-- Settings from named values. -/
def ofFields (fields : List (String × Document)) : Except Rejection Config :=
  Setting.byName.foldlM
    (fun config setting =>
      match Document.lookup? fields setting.name with
      | some value => setting.apply config value
      | none => .ok config)
    {}

/-- Settings from values in their order. -/
def ofElements (elements : List Document) : Except Rejection Config := do
  let config ← (Setting.inOrder.zip elements).foldlM
    (fun config given => given.1.apply config given.2) {}
  if elements.length ≤ Setting.inOrder.length then return config
  else .error (.overlong elements.length)

/-- The settings that a document holds. -/
def ofDocument : Document → Except Rejection Config
  | .record fields => ofFields fields
  | .list elements => ofElements elements
  | found => .error (.wrongType found .settings)

end BlockLink.Config
