/-!
# Keys from seeds

A small seed is stretched to the eight words of a cipher key. A 64-bit congruential
sequence starts at the seed; each of its next eight members gives one word, permuted by
a shift and a rotation that the member itself selects.
-/

namespace Chip8.Random

abbrev Key := Vector UInt32 8

namespace Key

def advance (state : UInt64) : UInt64 :=
  state * 6364136223846793005 + 11634580027462260723

def rotateRight (word count : UInt32) : UInt32 :=
  (word >>> count) ||| (word <<< (32 - count))

/-- The word that a member of the sequence gives: its upper part folded onto itself,
rotated by its top five bits. -/
def permute (state : UInt64) : UInt32 :=
  rotateRight (((state >>> 18) ^^^ state) >>> 27).toUInt32 (state >>> 59).toUInt32

def ofSeed (seed : UInt64) : Key :=
  Vector.ofFn fun i : Fin 8 => permute (Nat.repeat advance (i.val + 1) seed)

end Key

end Chip8.Random
