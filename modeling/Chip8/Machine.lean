import Chip8.CallStack
import Chip8.Failure
import Chip8.Keypad
import Chip8.Memory
import Chip8.Outbox
import Chip8.Random.Generator
import Chip8.Registers
import Chip8.Screen

/-!
# The machine

Everything that a machine consists of, its state after switching on, and what its host
can do to it between cycles: load a program, press keys, let the timers count, draw a
random byte, and push and pop return addresses.
-/

namespace Chip8

structure Machine where
  memory : Memory
  registers : Registers
  index : UInt16
  pc : UInt16
  stack : CallStack
  screen : Screen
  delayTimer : UInt8
  soundTimer : UInt8
  keys : Keypad
  /-- Whether the last cycle drew on the screen or cleared it. -/
  drawn : Bool
  opcode : UInt16
  generator : Random.Generator
  outbox : Outbox
  deriving DecidableEq

abbrev MachineM := EStateM Failure Machine

namespace Machine

def seed : UInt64 := 0

def powerOn : Machine where
  memory := Memory.powerOn
  registers := Bytes.zeros 16
  index := 0
  pc := UInt16.ofNat Memory.programStart
  stack := CallStack.empty
  screen := Screen.blank
  delayTimer := 0
  soundTimer := 0
  keys := Keypad.released
  drawn := false
  opcode := 0
  generator := Random.Generator.ofSeed seed
  outbox := Outbox.empty

/-- The machine with every part put back to what it is after switching on, except what the
last cycle asked of the host. -/
def restored (m : Machine) : Machine :=
  { m with
    memory := Memory.powerOn
    registers := Bytes.zeros 16
    index := 0
    pc := UInt16.ofNat Memory.programStart
    stack := CallStack.empty
    screen := Screen.blank
    delayTimer := 0
    soundTimer := 0
    keys := Keypad.released
    drawn := false
    opcode := 0
    generator := Random.Generator.ofSeed seed }

def reset : MachineM Unit :=
  modify restored

def load (program : List UInt8) : MachineM Unit := do
  let m ← get
  let memory ← Failure.attempt (m.memory.load program)
  set { m with memory }

def loadFile (content : Except FileFault (List UInt8)) : MachineM Nat := do
  let program ← Failure.attempt (content.mapError .file)
  load program
  return program.length

def press (key : Nat) (down : Bool) : MachineM Unit := do
  let m ← get
  let keys ← Failure.attempt (m.keys.setDown key down)
  set { m with keys }

def keyDown (key : Nat) : MachineM Bool := do
  Failure.attempt ((← get).keys.isDown key)

def pushAddress (address : UInt16) : MachineM Unit := do
  let m ← get
  let stack ← Failure.attempt (m.stack.push address)
  set { m with stack }

def popAddress : MachineM UInt16 := do
  let m ← get
  let (address, stack) ← Failure.attempt m.stack.pop
  set { m with stack }
  return address

def countDown (timer : UInt8) : UInt8 :=
  if timer = 0 then 0 else timer - 1

def aged (m : Machine) : Machine :=
  { m with delayTimer := countDown m.delayTimer, soundTimer := countDown m.soundTimer }

def countDownTimers : MachineM Unit :=
  modify aged

def nextRandom : MachineM UInt8 := do
  let m ← get
  let (byte, generator) := m.generator.next
  set { m with generator }
  return byte

def request (what : Request) : MachineM Unit := do
  let m ← get
  let outbox ← Failure.attempt (m.outbox.push what)
  set { m with outbox }

end Machine

end Chip8
