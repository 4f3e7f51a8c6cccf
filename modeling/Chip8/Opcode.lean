/-!
# Opcodes

The fields of an instruction word. Its four hexadecimal digits are the family, the two
registers and the last digit; the two lower ones form a byte and the three lower ones an
address.
-/

namespace Chip8.Opcode

def family (word : UInt16) : Nat :=
  word.toNat / 4096

def x (word : UInt16) : Fin 16 :=
  ⟨word.toNat / 256 % 16, Nat.mod_lt _ (by decide)⟩

def y (word : UInt16) : Fin 16 :=
  ⟨word.toNat / 16 % 16, Nat.mod_lt _ (by decide)⟩

def low (word : UInt16) : Fin 16 :=
  ⟨word.toNat % 16, Nat.mod_lt _ (by decide)⟩

def byte (word : UInt16) : UInt8 :=
  UInt8.ofNat (word.toNat % 256)

def address (word : UInt16) : Fin 4096 :=
  ⟨word.toNat % 4096, Nat.mod_lt _ (by decide)⟩

def ofDigits (family x y low : Nat) : UInt16 :=
  UInt16.ofNat (4096 * family + 256 * x + 16 * y + low)

def ofByte (family x : Nat) (byte : UInt8) : UInt16 :=
  UInt16.ofNat (4096 * family + 256 * x + byte.toNat)

def ofAddress (family : Nat) (address : Fin 4096) : UInt16 :=
  UInt16.ofNat (4096 * family + address.val)

end Chip8.Opcode
