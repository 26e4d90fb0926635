import BlockLink.Bus.Program

/-!
A scripted bus, which answers from prepared words instead of an instance and
keeps a record of the accesses made on it.
-/

namespace BlockLink

/-- A register access, with the word that was read or written. -/
inductive Access where
  | read (address word : UInt32)
  | write (address word : UInt32)
deriving DecidableEq

/-- The prepared answers of a scripted bus, and what has been asked of it. -/
structure Script where
  /-- The words that each address answers in turn. -/
  words : List (UInt32 × List UInt32)
  /-- The times that the clock shows in turn. -/
  clock : List Time
  /-- The accesses made so far, the newest first. -/
  accesses : List Access := []
  /-- How often the clock was read. -/
  ticks : Nat := 0

namespace Script

/-- The next answer of a series and what remains of it. The last answer repeats, and a
series without answers gives the default. -/
def draw {α : Type} [Inhabited α] : List α → α × List α
  | [] => (default, [])
  | [answer] => (answer, [answer])
  | answer :: next :: rest => (answer, next :: rest)

/-- The answers prepared for an address. -/
def series (script : Script) (address : UInt32) : List UInt32 :=
  ((script.words.find? fun prepared => prepared.1 = address).map Prod.snd).getD []

/-- Replace the answers prepared for an address. -/
def setSeries (script : Script) (address : UInt32) (answers : List UInt32) :
    List (UInt32 × List UInt32) :=
  script.words.map fun prepared =>
    if prepared.1 = address then (address, answers) else prepared

/-- Answer a read. -/
def read (address : UInt32) : Step Event Script (Except Fault UInt32) := fun script =>
  let (word, rest) := draw (script.series address)
  ⟨.ok word,
    { script with
      words := script.setSeries address rest
      accesses := .read address word :: script.accesses }, []⟩

/-- Record a write. -/
def write (address word : UInt32) : Step Event Script Unit := fun script =>
  ⟨(), { script with accesses := .write address word :: script.accesses }, []⟩

/-- Answer a question for the time. -/
def now : Step Event Script Time := fun script =>
  let (time, rest) := draw script.clock
  ⟨time, { script with clock := rest, ticks := script.ticks + 1 }, []⟩

/-- The bus that plays a script. -/
def bus : Bus Script where
  read
  write
  now

end Script

end BlockLink
