import Chip8.Error
import Chip8.Instruction
import Chip8.Opcode

/-!
# Decoding

Which instruction a word stands for. The family decides; families 0, 8 and E are split
further by the last digit, and family F by the last byte. Digits that nothing asks for
are ignored, so many words stand for the same instruction.
-/

namespace Chip8.Instruction

def ofSystemWord (word : UInt16) : Instruction :=
  match (Opcode.low word).val with
  | 0x0 => .clearScreen
  | 0xE => .ret
  | _ => .routine (Opcode.address word)

def ofArithmeticWord? (word : UInt16) : Option Instruction :=
  let x := Opcode.x word
  let y := Opcode.y word
  match (Opcode.low word).val with
  | 0x0 => some (.binary .copy x y)
  | 0x1 => some (.binary .or x y)
  | 0x2 => some (.binary .and x y)
  | 0x3 => some (.binary .xor x y)
  | 0x4 => some (.binary .add x y)
  | 0x5 => some (.binary .subtract x y)
  | 0x6 => some (.unary .halve x)
  | 0x7 => some (.binary .subtractFrom x y)
  | 0xE => some (.unary .double x)
  | _ => none

def ofKeyWord? (word : UInt16) : Option Instruction :=
  let x := Opcode.x word
  match (Opcode.low word).val with
  | 0xE => some (.skipIf (.keyDown x))
  | 0x1 => some (.skipIf (.keyUp x))
  | _ => none

def ofDeviceWord? (word : UInt16) : Option Instruction :=
  let x := Opcode.x word
  match (Opcode.byte word).toNat with
  | 0x07 => some (.readDelay x)
  | 0x0A => some (.awaitKey x)
  | 0x15 => some (.setDelay x)
  | 0x18 => some (.setSound x)
  | 0x1E => some (.addIndex x)
  | 0x29 => some (.pointToGlyph x)
  | 0x33 => some (.storeDecimal x)
  | 0x55 => some (.storeRegisters x)
  | 0x65 => some (.loadRegisters x)
  | _ => none

def ofWord? (word : UInt16) : Option Instruction :=
  let x := Opcode.x word
  let y := Opcode.y word
  let byte := Opcode.byte word
  let address := Opcode.address word
  match Opcode.family word with
  | 0x0 => some (ofSystemWord word)
  | 0x1 => some (.jump address)
  | 0x2 => some (.call address)
  | 0x3 => some (.skipIf (.isByte x byte))
  | 0x4 => some (.skipIf (.isNotByte x byte))
  | 0x5 => some (.skipIf (.same x y))
  | 0x6 => some (.setByte x byte)
  | 0x7 => some (.addByte x byte)
  | 0x8 => ofArithmeticWord? word
  | 0x9 => some (.skipIf (.differ x y))
  | 0xA => some (.setIndex address)
  | 0xB => some (.jumpOffset address)
  | 0xC => some (.random x byte)
  | 0xD => some (.draw x y (Opcode.low word))
  | 0xE => ofKeyWord? word
  | 0xF => ofDeviceWord? word
  | _ => none

def decode (word : UInt16) : Except Error Instruction :=
  match ofWord? word with
  | some instruction => .ok instruction
  | none => .error (.noInstruction word)

end Chip8.Instruction
