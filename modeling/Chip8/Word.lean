/-!
# Addresses as sixteen-bit words

Sums and products of addresses that are not supposed to overflow: they have no value
when they would.
-/

namespace Chip8.Word

def add? (a b : UInt16) : Option UInt16 :=
  if a.toNat + b.toNat < 65536 then some (a + b) else none

def mul? (a b : UInt16) : Option UInt16 :=
  if a.toNat * b.toNat < 65536 then some (a * b) else none

def ofBytes (high low : UInt8) : UInt16 :=
  UInt16.ofNat (256 * high.toNat + low.toNat)

end Chip8.Word
