import BlockLink.Block
import BlockLink.Time

/-!
The bounded first-in first-out store of an instance. The bound is part of the
type: a push asks for the room it needs.
-/

namespace BlockLink

/-- A queued block with the framing that travels alongside it. -/
@[ext]
structure Entry where
  block : Block
  /-- Whether this is the final block of its message. -/
  final : Bool
  /-- The earliest time at which the entry may cross to the peer. -/
  readyAt : Time
deriving DecidableEq, Inhabited

/-- The number of blocks that a FIFO holds at most. -/
abbrev Fifo.depth : Nat := 4

/-- At most `Fifo.depth` entries, the oldest first. -/
@[ext]
structure Fifo where
  entries : List Entry
  size_le : entries.length ≤ Fifo.depth
deriving DecidableEq

namespace Fifo

def empty : Fifo := ⟨[], by decide⟩

instance : Inhabited Fifo := ⟨empty⟩

def size (fifo : Fifo) : Nat := fifo.entries.length

def blocks (fifo : Fifo) : List Block := fifo.entries.map Entry.block

def oldest? (fifo : Fifo) : Option Entry := fifo.entries.head?

/-- Whether one more entry fits. -/
def HasRoom (fifo : Fifo) : Prop := fifo.size < depth

instance (fifo : Fifo) : Decidable fifo.HasRoom :=
  inferInstanceAs (Decidable (_ < _))

/-- Whether some entry ends its message. -/
def HoldsFinal (fifo : Fifo) : Prop := ∃ entry ∈ fifo.entries, entry.final = true

instance (fifo : Fifo) : Decidable fifo.HoldsFinal :=
  inferInstanceAs (Decidable (∃ entry ∈ fifo.entries, entry.final = true))

/-- Append the newest entry. -/
def push (fifo : Fifo) (entry : Entry) (room : fifo.HasRoom) : Fifo where
  entries := fifo.entries ++ [entry]
  size_le := by
    have room : fifo.entries.length < depth := room
    simp only [List.length_append, List.length_singleton]
    omega

/-- Forget the `count` oldest entries. -/
def drop (fifo : Fifo) (count : Nat) : Fifo where
  entries := fifo.entries.drop count
  size_le := by
    have bound := fifo.size_le
    simp only [List.length_drop]
    omega

/-- The list with its last entry marked as final. -/
def markLast : List Entry → List Entry
  | [] => []
  | [entry] => [{ entry with final := true }]
  | entry :: next :: rest => entry :: markLast (next :: rest)

theorem length_markLast (entries : List Entry) :
    (markLast entries).length = entries.length := by
  fun_induction markLast entries with
  | case1 => rfl
  | case2 => rfl
  | case3 entry next rest ih => simp [ih]

/-- Mark the newest entry as the end of its message. -/
def markNewest (fifo : Fifo) : Fifo where
  entries := markLast fifo.entries
  size_le := by
    rw [length_markLast]
    exact fifo.size_le

@[simp]
theorem entries_empty : empty.entries = [] := rfl

@[simp]
theorem entries_push (fifo : Fifo) (entry : Entry) (room : fifo.HasRoom) :
    (fifo.push entry room).entries = fifo.entries ++ [entry] := rfl

@[simp]
theorem entries_drop (fifo : Fifo) (count : Nat) :
    (fifo.drop count).entries = fifo.entries.drop count := rfl

@[simp]
theorem entries_markNewest (fifo : Fifo) :
    fifo.markNewest.entries = markLast fifo.entries := rfl

end Fifo

end BlockLink
