/-!
The two ends of the link, and values that exist once per end.
-/

namespace BlockLink

/-- One of the two instances on a link. -/
inductive Side where
  | left
  | right
deriving DecidableEq, Inhabited

namespace Side

def index : Side → Nat
  | left => 0
  | right => 1

def ofIndex? : Nat → Option Side
  | 0 => some left
  | 1 => some right
  | _ => none

def peer : Side → Side
  | left => right
  | right => left

/-- The name under which the instance appears in logs. -/
def label : Side → String
  | left => "CMOD0"
  | right => "CMOD1"

@[simp]
theorem peer_peer (side : Side) : side.peer.peer = side := by
  cases side <;> rfl

@[simp]
theorem peer_ne (side : Side) : side.peer ≠ side := by
  cases side <;> nofun

end Side

/-- A value for each side. -/
@[ext]
structure PerSide (α : Type) where
  left : α
  right : α
deriving DecidableEq

namespace PerSide

variable {α β : Type}

/-- The same value on both sides. -/
def both (value : α) : PerSide α := ⟨value, value⟩

def get (pair : PerSide α) : Side → α
  | .left => pair.left
  | .right => pair.right

def set (pair : PerSide α) (side : Side) (value : α) : PerSide α :=
  match side with
  | .left => { pair with left := value }
  | .right => { pair with right := value }

/-- The value of each side moved to the other one. -/
def swap (pair : PerSide α) : PerSide α := ⟨pair.right, pair.left⟩

@[simp]
theorem get_both (value : α) (side : Side) : (both value).get side = value := by
  cases side <;> rfl

@[simp]
theorem get_set_self (pair : PerSide α) (side : Side) (value : α) :
    (pair.set side value).get side = value := by
  cases side <;> rfl

@[simp]
theorem get_set_peer (pair : PerSide α) (side : Side) (value : α) :
    (pair.set side value).get side.peer = pair.get side.peer := by
  cases side <;> rfl

@[simp]
theorem get_peer_set (pair : PerSide α) (side : Side) (value : α) :
    (pair.set side.peer value).get side = pair.get side := by
  cases side <;> rfl

end PerSide

end BlockLink
