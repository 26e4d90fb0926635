import BlockLink.Benchmark.CommandLine

/-!
The benchmark as a program. It prints what was measured; everything else goes
to the error stream.
-/

namespace BlockLink.Benchmark

/-- How the program is used. -/
def usage : List String :=
  ["Usage: perftest [OPTIONS]",
    "",
    "Options:",
    "  -l, --latency <CYCLES>        Cycles a block needs to cross the link [default: 0]",
    "  -a, --access-cycles <CYCLES>  Cycles charged per register access [default: 1]",
    "  -r, --rounds <COUNT>          How often to repeat the complete exchange [default: 1]",
    "  -v, --verbose                 Log the status of both instances when done",
    "  -h, --help                    Print help",
    "  -V, --version                 Print version"]

def interruptionText : Interruption → String
  | .refused refusal => refusal.message
  | .fault fault => fault.message
  | .stalled => "the clock stands still"

/-- Measure and print. -/
def measure (setup : Setup) (verbose : Bool) : IO UInt32 := do
  match Benchmark.run setup with
  | .ok report =>
    for line in report.lines do
      IO.println line
    if !report.intact then
      IO.eprintln "received a block that was not sent"
    if verbose then
      for side in [Side.left, Side.right] do
        for event in (report.link.status side).reports side.label do
          IO.eprintln event.record
    return 0
  | .error interruption =>
    IO.eprintln (interruptionText interruption)
    return 1

/-- Carry out a request and answer the exit code. -/
def serve : Request → IO UInt32
  | .measure setup verbose => measure setup verbose
  | .version => do
    IO.println versionLine
    return 0
  | .help => do
    for line in usage do
      IO.println line
    return 0
  | .rejected => do
    for line in usage do
      IO.eprintln line
    return 2

end BlockLink.Benchmark

def main (arguments : List String) : IO UInt32 :=
  BlockLink.Benchmark.serve (BlockLink.Benchmark.CommandLine.parse arguments)
