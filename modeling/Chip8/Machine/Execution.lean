import Chip8.Machine
import Chip8.Sprite

/-!
# Executing an instruction

What each instruction does to the machine. Executing one gives the address of the next;
the program counter itself is left to the cycle. Every check an instruction makes stands
before the first change it makes.
-/

namespace Chip8

def Condition.holds (m : Machine) : Condition → Except Error Bool
  | .isByte x byte => .ok (m.registers.get x == byte)
  | .isNotByte x byte => .ok (m.registers.get x != byte)
  | .same x y => .ok (m.registers.get x == m.registers.get y)
  | .differ x y => .ok (m.registers.get x != m.registers.get y)
  | .keyDown x => m.keys.isDown (m.registers.get x).toNat
  | .keyUp x => (m.keys.isDown (m.registers.get x).toNat).map not

namespace Machine

def modifyRegisters (f : Registers → Registers) : MachineM Unit :=
  modify fun m => { m with registers := f m.registers }

def clearScreen : MachineM Unit := do
  request .clearDisplay
  modify fun m => { m with screen := Screen.blank, drawn := true }

def draw (x y rows : Fin 16) : MachineM Unit := do
  let m ← get
  let start := m.index.toNat
  Failure.attempt (Memory.checkSpan start rows)
  let sprite ← Failure.orTrap (m.memory.slice? start rows)
  let pixels := Sprite.pixels (m.registers.get x).toNat (m.registers.get y).toNat sprite
  let (hit, screen) ← Failure.attempt (m.screen.plot pixels)
  set { m with screen, registers := m.registers.setFlag hit, drawn := true }

def drawRandom (x : Register) (mask : UInt8) : MachineM Unit := do
  let byte ← nextRandom
  modifyRegisters (·.put x (byte &&& mask))

/-- Puts the lowest key that is down into a register and gives `next`. If none is down,
asks the host to wait and gives `again`. -/
def waitForKey (x : Register) (again next : UInt16) : MachineM UInt16 := do
  match (← get).keys.lowestDown? with
  | some key =>
      modifyRegisters (·.put x (UInt8.ofNat key.val))
      return next
  | none =>
      request .awaitKey
      return again

def pointToGlyph (x : Register) : MachineM Unit := do
  let m ← get
  let offset ← Failure.orTrap (Word.mul? Font.glyphSize (m.registers.get x).toUInt16)
  let index ← Failure.orTrap (Word.add? Font.base offset)
  set { m with index }

def store (content : List UInt8) : MachineM Unit := do
  let m ← get
  Failure.attempt (Memory.checkSpan m.index.toNat content.length)
  let memory ← Failure.orTrap (m.memory.write? m.index.toNat content)
  set { m with memory }

def decimalDigits (byte : UInt8) : List UInt8 :=
  [byte / 100, byte / 10 % 10, byte % 10]

def storeDecimal (x : Register) : MachineM Unit := do
  store (decimalDigits ((← get).registers.get x))

def storeRegisters (x : Register) : MachineM Unit := do
  store ((← get).registers.toList.take (x.val + 1))

def loadRegisters (x : Register) : MachineM Unit := do
  let m ← get
  let start := m.index.toNat
  Failure.attempt (Memory.checkSpan start (x.val + 1))
  let content ← Failure.orTrap (m.memory.slice? start (x.val + 1))
  set { m with registers := m.registers.write 0 content }

def execute (instruction : Instruction) : MachineM UInt16 := do
  let m ← get
  let next ← Failure.orTrap (Word.add? m.pc 2)
  let skip ← Failure.orTrap (Word.add? m.pc 4)
  match instruction with
  | .clearScreen =>
      clearScreen
      return next
  | .ret => popAddress
  | .routine _ => return next
  | .jump target => return target.toWord
  | .call target =>
      pushAddress next
      return target.toWord
  | .jumpOffset base =>
      Failure.orTrap (Word.add? base.toWord (m.registers.get offsetRegister).toUInt16)
  | .skipIf condition => return if ← Failure.attempt (condition.holds m) then skip else next
  | .setByte x byte =>
      modifyRegisters (·.put x byte)
      return next
  | .addByte x byte =>
      modifyRegisters fun v => v.put x (v.get x + byte)
      return next
  | .binary op x y =>
      modifyRegisters (·.combine op x y)
      return next
  | .unary op x =>
      modifyRegisters (·.change op x)
      return next
  | .setIndex address =>
      modify fun m => { m with index := address.toWord }
      return next
  | .random x mask =>
      drawRandom x mask
      return next
  | .draw x y rows =>
      draw x y rows
      return next
  | .readDelay x =>
      modifyRegisters (·.put x m.delayTimer)
      return next
  | .awaitKey x => waitForKey x m.pc next
  | .setDelay x =>
      modify fun m => { m with delayTimer := m.registers.get x }
      return next
  | .setSound x =>
      modify fun m => { m with soundTimer := m.registers.get x }
      return next
  | .addIndex x =>
      modify fun m => { m with index := m.index + (m.registers.get x).toUInt16 }
      return next
  | .pointToGlyph x =>
      pointToGlyph x
      return next
  | .storeDecimal x =>
      storeDecimal x
      return next
  | .storeRegisters x =>
      storeRegisters x
      return next
  | .loadRegisters x =>
      loadRegisters x
      return next

end Machine

end Chip8
