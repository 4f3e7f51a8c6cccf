import Chip8.Cells
import Chip8.Random.Key

/-!
# The keystream

An endless sequence of 32-bit words determined by a key. It comes in blocks of sixteen
words, and a block depends on the key and its own number alone: four constant words,
the key, the number and two zeros are mixed in six double rounds and added to what they
were before. So every word can be had by its position, whatever was read before.
-/

namespace Chip8.Random

abbrev Block := Vector UInt32 16

namespace Block

def rotateLeft (word count : UInt32) : UInt32 :=
  (word <<< count) ||| (word >>> (32 - count))

def mix (target source mixed : Fin 16) (count : UInt32) (block : Block) : Block :=
  let sum := block.get target + block.get source
  let turned := rotateLeft (block.get mixed ^^^ sum) count
  Cells.put (Cells.put block target sum) mixed turned

def quarterRound (a b c d : Fin 16) (block : Block) : Block :=
  mix c d b 7 (mix a b d 8 (mix c d b 12 (mix a b d 16 block)))

def place (row column : Nat) : Fin 16 :=
  ⟨(4 * row + column % 4) % 16, Nat.mod_lt _ (by decide)⟩

/-- A quarter round on the line that starts in a column of the first row and moves to
the right by `slant` with each row. -/
def lineRound (slant : Nat) (block : Block) (column : Nat) : Block :=
  quarterRound (place 0 column) (place 1 (column + slant)) (place 2 (column + 2 * slant))
    (place 3 (column + 3 * slant)) block

def doubleRound (block : Block) : Block :=
  (List.range 4).foldl (lineRound 1) ((List.range 4).foldl (lineRound 0) block)

def constants : Vector UInt32 4 := #v[0x61707865, 0x3320646e, 0x79622d32, 0x6b206574]

def counter (number : UInt64) : Vector UInt32 4 := #v[
  number.toUInt32, (number >>> 32).toUInt32, 0, 0]

def start (key : Key) (number : UInt64) : Block :=
  constants ++ key ++ counter number

def generate (key : Key) (number : UInt64) : Block :=
  let initial := start key number
  Vector.zipWith (· + ·) (Nat.repeat doubleRound 6 initial) initial

end Block

def keystream (key : Key) (position : Nat) : UInt32 :=
  (Block.generate key (UInt64.ofNat (position / 16))).get ⟨position % 16, Nat.mod_lt _ (by decide)⟩

end Chip8.Random
