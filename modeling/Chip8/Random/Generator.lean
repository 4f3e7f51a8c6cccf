import Chip8.Random.Keystream

/-!
# Random bytes

A byte from 0 to 254 is a word of the keystream scaled down: the upper half of the
product with 255. When the lower half is so large that a second word could carry into
the upper one, that word is drawn too and its carry added.
-/

namespace Chip8.Random

def range : Nat := 255

def scaled (word : UInt32) : Nat :=
  word.toNat * range / UInt32.size

def remainder (word : UInt32) : Nat :=
  word.toNat * range % UInt32.size

/-- Whether a second word could still carry into the byte. -/
def needsCarry (word : UInt32) : Bool :=
  UInt32.size - range < remainder word

def carry (first second : UInt32) : Nat :=
  (remainder first + scaled second) / UInt32.size

structure Generator where
  key : Key
  position : Nat
  deriving DecidableEq, Repr

namespace Generator

def ofSeed (seed : UInt64) : Generator where
  key := Key.ofSeed seed
  position := 0

def peek (generator : Generator) (ahead : Nat) : UInt32 :=
  keystream generator.key (generator.position + ahead)

def skip (generator : Generator) (count : Nat) : Generator :=
  { generator with position := generator.position + count }

def next (generator : Generator) : UInt8 × Generator :=
  let first := generator.peek 0
  if needsCarry first then
    (UInt8.ofNat (scaled first + carry first (generator.peek 1)), generator.skip 2)
  else (UInt8.ofNat (scaled first), generator.skip 1)

end Generator

end Chip8.Random
