import Chip8.Bytes
import Chip8.Cells
import Chip8.Instruction

/-!
# Registers and arithmetic

Sixteen registers of a byte each. The last one is the flag: an operation that has one
writes it before it reads its operands for the result, so a flag register among the
operands takes part with its new value.
-/

namespace Chip8

abbrev Registers := Bytes 16

/-- The flag of an operation on two bytes: the carry of a sum, and for a difference
whether it is positive. -/
def BinaryOp.flag? (op : BinaryOp) (a b : UInt8) : Option Bool :=
  match op with
  | .add => some (255 < a.toNat + b.toNat)
  | .subtract => some (b < a)
  | .subtractFrom => some (a < b)
  | .copy | .or | .and | .xor => none

def BinaryOp.result (op : BinaryOp) (a b : UInt8) : UInt8 :=
  match op with
  | .copy => b
  | .or => a ||| b
  | .and => a &&& b
  | .xor => a ^^^ b
  | .add => a + b
  | .subtract => a - b
  | .subtractFrom => b - a

def UnaryOp.flag (op : UnaryOp) (a : UInt8) : Bool :=
  match op with
  | .halve => a.toNat.testBit 0
  | .double => a.toNat.testBit 7

def UnaryOp.result (op : UnaryOp) (a : UInt8) : UInt8 :=
  match op with
  | .halve => a / 2
  | .double => a + a

namespace Registers

def count : Nat := 16

def put (registers : Registers) (x : Register) (byte : UInt8) : Registers :=
  Cells.put registers x byte

def setFlag (registers : Registers) (flag : Bool) : Registers :=
  registers.put flagRegister flag

def setFlag? (registers : Registers) : Option Bool → Registers
  | some flag => registers.setFlag flag
  | none => registers

def combine (registers : Registers) (op : BinaryOp) (x y : Register) : Registers :=
  let flagged := registers.setFlag? (op.flag? (registers.get x) (registers.get y))
  flagged.put x (op.result (flagged.get x) (flagged.get y))

def change (registers : Registers) (op : UnaryOp) (x : Register) : Registers :=
  let flagged := registers.setFlag (op.flag (registers.get x))
  flagged.put x (op.result (flagged.get x))

end Registers

end Chip8
