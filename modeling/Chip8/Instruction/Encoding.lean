import Chip8.Instruction
import Chip8.Opcode

/-!
# Encoding

The word that is written for an instruction: of all words that stand for it, the one in
which the ignored digits have their documented values.
-/

namespace Chip8

def BinaryOp.digit : BinaryOp → Nat
  | .copy => 0x0
  | .or => 0x1
  | .and => 0x2
  | .xor => 0x3
  | .add => 0x4
  | .subtract => 0x5
  | .subtractFrom => 0x7

def UnaryOp.digit : UnaryOp → Nat
  | .halve => 0x6
  | .double => 0xE

def Condition.encode : Condition → UInt16
  | .isByte x byte => Opcode.ofByte 0x3 x byte
  | .isNotByte x byte => Opcode.ofByte 0x4 x byte
  | .same x y => Opcode.ofDigits 0x5 x y 0x0
  | .differ x y => Opcode.ofDigits 0x9 x y 0x0
  | .keyDown x => Opcode.ofByte 0xE x 0x9E
  | .keyUp x => Opcode.ofByte 0xE x 0xA1

def Instruction.encode : Instruction → UInt16
  | .clearScreen => 0x00E0
  | .ret => 0x00EE
  | .routine address => Opcode.ofAddress 0x0 address
  | .jump target => Opcode.ofAddress 0x1 target
  | .call target => Opcode.ofAddress 0x2 target
  | .jumpOffset base => Opcode.ofAddress 0xB base
  | .skipIf condition => condition.encode
  | .setByte x byte => Opcode.ofByte 0x6 x byte
  | .addByte x byte => Opcode.ofByte 0x7 x byte
  | .binary op x y => Opcode.ofDigits 0x8 x y op.digit
  | .unary op x => Opcode.ofDigits 0x8 x 0x0 op.digit
  | .setIndex address => Opcode.ofAddress 0xA address
  | .random x mask => Opcode.ofByte 0xC x mask
  | .draw x y rows => Opcode.ofDigits 0xD x y rows
  | .readDelay x => Opcode.ofByte 0xF x 0x07
  | .awaitKey x => Opcode.ofByte 0xF x 0x0A
  | .setDelay x => Opcode.ofByte 0xF x 0x15
  | .setSound x => Opcode.ofByte 0xF x 0x18
  | .addIndex x => Opcode.ofByte 0xF x 0x1E
  | .pointToGlyph x => Opcode.ofByte 0xF x 0x29
  | .storeDecimal x => Opcode.ofByte 0xF x 0x33
  | .storeRegisters x => Opcode.ofByte 0xF x 0x55
  | .loadRegisters x => Opcode.ofByte 0xF x 0x65

end Chip8
