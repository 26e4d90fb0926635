import BlockLink.Benchmark.Basic
import BlockLink.Text.Decimal

/-!
The command line of the benchmark. Arguments are taken from left to right, and
the first that is wrong, or that asks for the version or for help, decides.

An option may be given once. Its value is attached to it, with or without an
equals sign after a short name, or is the next argument, unless that looks like
an option itself. Short flags may share one dash.
-/

namespace BlockLink.Benchmark

/-- What a command line asks for. -/
inductive Request where
  | measure (setup : Setup) (verbose : Bool)
  | version
  | help
  | rejected
deriving DecidableEq

/-- The name and the version of the program. -/
def versionLine : String := "perftest 0.1.0"

namespace CommandLine

/-- An option that takes a number. -/
inductive Quantity where
  | latency
  | accessCycles
  | rounds
deriving DecidableEq

/-- An option of the command line. -/
inductive Choice where
  | quantity (quantity : Quantity)
  | verbose
  | version
  | help
deriving DecidableEq

def Choice.ofShort? : Char → Option Choice
  | 'l' => some (.quantity .latency)
  | 'a' => some (.quantity .accessCycles)
  | 'r' => some (.quantity .rounds)
  | 'v' => some .verbose
  | 'V' => some .version
  | 'h' => some .help
  | _ => none

def Choice.ofLong? : String → Option Choice
  | "latency" => some (.quantity .latency)
  | "access-cycles" => some (.quantity .accessCycles)
  | "rounds" => some (.quantity .rounds)
  | "verbose" => some .verbose
  | "version" => some .version
  | "help" => some .help
  | _ => none

/-- The options given so far. -/
structure Given where
  latency : Option UInt64 := none
  accessCycles : Option UInt64 := none
  rounds : Option UInt64 := none
  verbose : Bool := false
deriving DecidableEq

namespace Given

def quantity (given : Given) : Quantity → Option UInt64
  | .latency => given.latency
  | .accessCycles => given.accessCycles
  | .rounds => given.rounds

def withQuantity (given : Given) (quantity : Quantity) (value : UInt64) : Given :=
  match quantity with
  | .latency => { given with latency := some value }
  | .accessCycles => { given with accessCycles := some value }
  | .rounds => { given with rounds := some value }

/-- The request of the options, with the usual values for those that are missing. -/
def request (given : Given) : Request :=
  let usual : Setup := {}
  .measure
    { latency := given.latency.getD usual.latency
      accessCycles := given.accessCycles.getD usual.accessCycles
      rounds := given.rounds.getD usual.rounds }
    given.verbose

end Given

/-- A number of at most 64 bits: decimal digits, with at most one plus sign in front. -/
def number? (text : List Char) : Option UInt64 :=
  let digits : List Char := match text with
    | '+' :: rest => rest
    | text => text
  let value := Text.Decimal.number digits
  if digits ≠ [] ∧ digits.all Char.isDigit ∧ value < 2 ^ 64 then some (UInt64.ofNat value)
  else none

/-- Note a quantity, unless it was given before or its value is no number. -/
def note? (given : Given) (quantity : Quantity) (text : List Char) : Option Given :=
  if (given.quantity quantity).isSome then none
  else (number? text).map (given.withQuantity quantity)

/-- What reading a part of the command line comes to. -/
inductive Progress where
  | ended (request : Request)
  | noted (given : Given)
  /-- The value of this option is the next argument. -/
  | awaiting (quantity : Quantity) (given : Given)

def Progress.ofOption : Option Given → Progress
  | some given => noted given
  | none => ended .rejected

/-- Take an option without a value. -/
def takeFlag (given : Given) : Choice → Progress
  | .verbose => if given.verbose then .ended .rejected else .noted { given with verbose := true }
  | .version => .ended .version
  | .help => .ended .help
  | .quantity quantity => .awaiting quantity given

/-- Take the short options that share a dash. The rest behind a quantity is its value. -/
def takeShort (given : Given) : List Char → Progress
  | [] => .noted given
  | char :: rest =>
    match Choice.ofShort? char with
    | none => .ended .rejected
    | some (.quantity quantity) =>
      match rest with
      | [] => .awaiting quantity given
      | '=' :: value => .ofOption (note? given quantity value)
      | value => .ofOption (note? given quantity value)
    | some choice =>
      match takeFlag given choice with
      | .noted given => takeShort given rest
      | progress => progress

/-- Take a long option. Only a quantity takes a value behind an equals sign. -/
def takeLong (given : Given) (text : List Char) : Progress :=
  let name := text.takeWhile (· ≠ '=')
  let attached := text.dropWhile (· ≠ '=')
  match Choice.ofLong? (String.ofList name), attached with
  | none, _ => .ended .rejected
  | some choice, [] => takeFlag given choice
  | some (.quantity quantity), _ :: value => .ofOption (note? given quantity value)
  | some _, _ :: _ => .ended .rejected

/-- Take the arguments from left to right. `wanted` is the option whose value comes next. -/
def take (given : Given) : (wanted : Option Quantity) → List (List Char) → Request
  | none, [] => given.request
  | some _, [] => .rejected
  | some quantity, argument :: rest =>
    match argument with
    | '-' :: _ :: _ => .rejected
    | value =>
      match note? given quantity value with
      | some given => take given none rest
      | none => .rejected
  | none, argument :: rest =>
    let progress : Progress := match argument with
      | ['-', '-'] => if rest.isEmpty then .noted given else .ended .rejected
      | '-' :: '-' :: name => takeLong given name
      | '-' :: char :: chars => takeShort given (char :: chars)
      | _ => .ended .rejected
    match progress with
    | .ended request => request
    | .noted given => take given none rest
    | .awaiting quantity given => take given (some quantity) rest

/-- The request of a command line. -/
def parse (arguments : List String) : Request :=
  take {} none (arguments.map String.toList)

end CommandLine

end BlockLink.Benchmark
