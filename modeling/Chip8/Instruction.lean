/-!
# Instructions

What a word of a program can ask the machine to do. Operands are typed by what they
name: a register, an address, a byte, a number of rows. Instructions that differ only in
the operation applied or in the condition tested share a constructor.
-/

namespace Chip8

abbrev Register := Fin 16

abbrev Address := Fin 4096

def Address.toWord (address : Address) : UInt16 :=
  UInt16.ofNat address.val

def flagRegister : Register := 15

def offsetRegister : Register := 0

inductive Condition where
  | isByte (x : Register) (byte : UInt8)
  | isNotByte (x : Register) (byte : UInt8)
  | same (x y : Register)
  | differ (x y : Register)
  | keyDown (x : Register)
  | keyUp (x : Register)
  deriving DecidableEq, Repr

inductive BinaryOp where
  | copy
  | or
  | and
  | xor
  | add
  | subtract
  /-- Subtracts the first register from the second. -/
  | subtractFrom
  deriving DecidableEq, Repr

inductive UnaryOp where
  | halve
  | double
  deriving DecidableEq, Repr

inductive Instruction where
  | clearScreen
  | ret
  /-- A routine in the code of another processor, which is skipped (`0NNN`). -/
  | routine (address : Address)
  | jump (target : Address)
  | call (target : Address)
  /-- Jumps as far beyond the address as register zero says (`BNNN`). -/
  | jumpOffset (base : Address)
  | skipIf (condition : Condition)
  | setByte (x : Register) (byte : UInt8)
  | addByte (x : Register) (byte : UInt8)
  | binary (op : BinaryOp) (x y : Register)
  | unary (op : UnaryOp) (x : Register)
  | setIndex (address : Address)
  | random (x : Register) (mask : UInt8)
  | draw (x y rows : Fin 16)
  | readDelay (x : Register)
  | awaitKey (x : Register)
  | setDelay (x : Register)
  | setSound (x : Register)
  | addIndex (x : Register)
  | pointToGlyph (x : Register)
  | storeDecimal (x : Register)
  | storeRegisters (x : Register)
  | loadRegisters (x : Register)
  deriving DecidableEq, Repr

end Chip8
