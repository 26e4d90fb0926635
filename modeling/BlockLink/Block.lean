import BlockLink.Numerals

/-!
Blocks: four 32-bit words that cross the link as one unit.
-/

namespace BlockLink

/-- Four words that travel together, in transmission order. -/
@[ext]
structure Block where
  word0 : UInt32
  word1 : UInt32
  word2 : UInt32
  word3 : UInt32
deriving DecidableEq, Inhabited

namespace Block

/-- The block that a data window holds before anything was written to it. -/
def zero : Block := ⟨0, 0, 0, 0⟩

/-- The word at a position. -/
def word (block : Block) : Fin 4 → UInt32
  | 0 => block.word0
  | 1 => block.word1
  | 2 => block.word2
  | 3 => block.word3

/-- The block with the word at one position replaced. -/
def setWord (block : Block) (value : UInt32) : Fin 4 → Block
  | 0 => { block with word0 := value }
  | 1 => { block with word1 := value }
  | 2 => { block with word2 := value }
  | 3 => { block with word3 := value }

/-- The words in transmission order. -/
def toList (block : Block) : List UInt32 :=
  [block.word0, block.word1, block.word2, block.word3]

theorem word_setWord (block : Block) (value : UInt32) (position index : Fin 4) :
    (block.setWord value position).word index =
      if index = position then value else block.word index := by
  match position, index with
  | 0, 0 | 0, 1 | 0, 2 | 0, 3 | 1, 0 | 1, 1 | 1, 2 | 1, 3
  | 2, 0 | 2, 1 | 2, 2 | 2, 3 | 3, 0 | 3, 1 | 3, 2 | 3, 3 => rfl

end Block

end BlockLink
