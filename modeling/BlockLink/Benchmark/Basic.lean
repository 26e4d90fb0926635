import BlockLink.Link.Window

/-!
A benchmark of the register window: how many cycles single accesses, whole
blocks and complete exchanges cost on a link of given latency and access cost.
-/

namespace BlockLink.Benchmark

/-- Why a benchmark does not finish. -/
inductive Interruption where
  | refused (refusal : Refusal)
  | fault (fault : Fault)
  /-- A flag is awaited on a clock that stands still. -/
  | stalled
deriving DecidableEq

/-- The block that is sent. -/
def data : Block := ⟨0x01234567, 0x89abcdef, 0xfedcab98, 0x76543210⟩

/-- Read a flag of STATUS. -/
def readFlag (side : Side) (field : Field) (link : Link) : Bool × Link :=
  let outcome := (Link.readStatus side).run link
  (field.isSet outcome.value, outcome.state)

/-- Write the words of a block in order. -/
def writeBlock (side : Side) (block : Block) (link : Link) : Link :=
  let writes := do
    Link.writeData side 0 block.word0
    Link.writeData side 1 block.word1
    Link.writeData side 2 block.word2
    Link.writeData side 3 block.word3
  (writes.run link).state

/-- Read the words of a block in order. -/
def readBlock (side : Side) (link : Link) : Block × Link :=
  let reads : Step Event Link Block := do
    let word0 ← Link.readData side 0
    let word1 ← Link.readData side 1
    let word2 ← Link.readData side 2
    let word3 ← Link.readData side 3
    return ⟨word0, word1, word2, word3⟩
  let outcome := reads.run link
  (outcome.value, outcome.state)

/-- Poll a flag until it reads as expected. A poll that takes no time shows what every later
one would show. -/
def await (side : Side) (field : Field) (expected : Bool) (link : Link) :
    Except Interruption Link :=
  let seen := readFlag side field link
  if seen.1 = expected then .ok seen.2
  else if _later : link.time < seen.2.time then await side field expected seen.2
  else .error .stalled
termination_by 2 ^ 64 - link.time.toNat
decreasing_by
  have later : link.time.toNat < (readFlag side field link).2.time.toNat :=
    UInt64.lt_iff_toNat_lt.1 _later
  have bound := (readFlag side field link).2.time.toNat_lt
  omega

/-- The cycles of one complete exchange, and the block that was read back. -/
structure Exchange where
  cycles : Time
  received : Block
deriving DecidableEq

/-- Wait for room on the left, send a block, wait for it on the right and read it there. -/
def exchange (link : Link) : Except Interruption (Exchange × Link) := do
  let start := link.time
  let link ← await .left StatusWord.txFull false link
  let link := writeBlock .left data link
  let link ← await .right StatusWord.rxValid true link
  let (received, link) := readBlock .right link
  return (⟨link.time - start, received⟩, link)

/-- The cycles of a number of exchanges, added to those so far, and whether every block was
read back as it was sent. -/
def exchanges : (rounds : Nat) → (total : Time) → (intact : Bool) → Link →
    Except Interruption (Time × Bool × Link)
  | 0, total, intact, link => .ok (total, intact, link)
  | rounds + 1, total, intact, link =>
    match exchange link with
    | .ok (measured, link) =>
      exchanges rounds (total + measured.cycles) (intact && measured.received = data) link
    | .error interruption => .error interruption

/-- What is measured. -/
structure Setup where
  latency : Time := 0
  accessCycles : Time := 1
  rounds : UInt64 := 1
deriving DecidableEq

/-- The measured durations, in cycles. -/
structure Report where
  readFull : Time
  writeBlock : Time
  readValid : Time
  readBlock : Time
  /-- The mean duration of an exchange, rounded down; none for no exchange. -/
  exchange : Time
  /-- Whether every block was read back as it was sent. -/
  intact : Bool
  /-- The link when all is done. -/
  link : Link
deriving DecidableEq

/-- Open a message on the left side through CTRL. -/
def start (link : Link) : Except Interruption Link :=
  let control := (Link.readControl .left).run link
  match control.value with
  | .ok word =>
    .ok ((Link.writeControl .left (ControlWord.txTrigger.put word 1)).run control.state).state
  | .error fault => .error (.fault fault)

/-- Carry out all measurements on a new link. -/
def run (setup : Setup) : Except Interruption Report := do
  let config : Config :=
    { linkLatency := setup.latency, accessCycles := setup.accessCycles }
  let link ← (Link.create config).mapError .refused
  let link1 ← start link
  let (_, link2) := readFlag .left StatusWord.txFull link1
  let link3 := Benchmark.writeBlock .left data link2
  let (_, link4) := readFlag .right StatusWord.rxValid link3
  let link5 ← await .right StatusWord.rxValid true link4
  let (received, link6) := Benchmark.readBlock .right link5
  let (total, intact, link7) ←
    exchanges setup.rounds.toNat 0 (received = data) link6
  return {
    readFull := link2.time - link1.time
    writeBlock := link3.time - link2.time
    readValid := link4.time - link3.time
    readBlock := link6.time - link5.time
    exchange := total / max setup.rounds 1
    intact
    link := link7 }

/-- The line that shows a duration. -/
def durationLine (cycles : Time) : String :=
  "Duration: " ++ Nat.repr cycles.toNat ++ " cycles"

namespace Report

def lines (report : Report) : List String :=
  ["Running CMOD Performance Test...",
    "Performance Test 1: Read TXFULL register.",
    durationLine report.readFull,
    "Performance Test 2: Write 128bits to WDATA.",
    durationLine report.writeBlock,
    "Performance Test 3: Read RXVALID register.",
    durationLine report.readValid,
    "Performance Test 4: Read 128bits from RDATA.",
    durationLine report.readBlock,
    "Performance Test 5: Send & receive 128bits.",
    durationLine report.exchange,
    "Finished CMOD Performance Test"]

end Report

end BlockLink.Benchmark
