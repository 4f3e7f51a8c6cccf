import Chip8.Screen

/-!
# Sprites

A sprite is a list of rows, each a byte whose highest bit is the leftmost of eight
columns. What matters for drawing is the list of flat indices of its lit columns.
-/

namespace Chip8.Sprite

def isLit (row : UInt8) (column : Nat) : Bool :=
  row.toNat.testBit (7 - column)

def rowPixels (x y : Nat) (row : UInt8) : List Nat :=
  ((List.range 8).filter (isLit row)).map fun column => Screen.index (x + column) y

/-- The lit pixels of a sprite whose top left corner is in column `x` of row `y`, row by
row and from left to right. No position wraps around. -/
def pixels (x y : Nat) : List UInt8 → List Nat
  | [] => []
  | row :: rest => rowPixels x y row ++ pixels x (y + 1) rest

end Chip8.Sprite
