import Chip8.Machine.Execution

/-!
# The meaning of instructions

What an instruction does, split into three pure functions of the machine it meets: the
failure that stops it, the address of the next word, and the machine it leaves behind.
The last two count only if there is no failure. Executing an instruction is shown
elsewhere to be nothing but these three.
-/

namespace Chip8

namespace Failure

def guarded {σ α : Type} (failure? : Option Failure) (s : σ) (value : α) (after : σ) :
    EStateM.Result Failure σ α :=
  match failure? with
  | some failure => .error failure s
  | none => .ok value after

end Failure

namespace Outbox

def single (request : Request) : Outbox where
  requests := [request]
  length_le := Nat.le_succ 1

end Outbox

namespace CallStack

def popped (stack : CallStack) : CallStack where
  entries := stack.entries.tail
  length_le := by
    rw [List.length_tail]
    exact Nat.le_trans (Nat.sub_le _ _) stack.length_le

def pushed (stack : CallStack) (address : UInt16) : CallStack :=
  if h : stack.entries.length < 16 then ⟨address :: stack.entries, h⟩ else stack

theorem push_eq (stack : CallStack) (address : UInt16) :
    stack.push address =
      if stack.depth = 16 then .error (.stackFull 16) else .ok (stack.pushed address) := by
  have hle := stack.length_le
  unfold push pushed depth
  split
  · rename_i hroom
    rw [if_neg (Nat.ne_of_lt hroom)]
  · rename_i hfull
    rw [if_pos (Nat.le_antisymm hle (Nat.le_of_not_lt hfull))]
    rfl

theorem pop_eq (stack : CallStack) :
    stack.pop =
      if stack.depth = 0 then .error .stackEmpty
      else .ok (stack.entries.headD 0, stack.popped) := by
  rcases stack with ⟨entries, hle⟩
  cases entries with
  | nil => rfl
  | cons address rest => rfl

end CallStack

namespace Machine

/-!
## Memory from the index on
-/

/-- The `len` bytes from the index on, or none at all if they do not lie in memory. -/
def bytesAtIndex (m : Machine) (len : Nat) : List UInt8 :=
  (m.memory.slice? m.index.toNat len).getD []

theorem slice?_bytesAtIndex {m : Machine} {len : Nat} (hfit : m.index.toNat + len ≤ 4096) :
    m.memory.slice? m.index.toNat len = some (m.bytesAtIndex len) := by
  unfold bytesAtIndex
  cases hslice : m.memory.slice? m.index.toNat len with
  | some content => rfl
  | none =>
      have hlong := Bytes.slice?_eq_none_iff.mp hslice
      exact absurd hfit (Nat.not_le_of_lt hlong)

theorem length_bytesAtIndex_le (m : Machine) (len : Nat) :
    (m.bytesAtIndex len).length ≤ len := by
  unfold bytesAtIndex
  cases hslice : m.memory.slice? m.index.toNat len with
  | some content => exact Nat.le_of_eq (Bytes.length_of_slice? hslice)
  | none => exact Nat.zero_le len

def spanFailure? (m : Machine) (len : Nat) : Option Failure :=
  if 4096 < m.index.toNat + len then
    some (.error (.addressOutside (m.index.toNat + len - 1)))
  else none

/-!
## Drawing
-/

def spritePixels (m : Machine) (x y rows : Fin 16) : List Nat :=
  Sprite.pixels (m.registers.get x).toNat (m.registers.get y).toNat (m.bytesAtIndex rows)

theorem spritePixels_zero {m : Machine} {x y rows : Fin 16} (hrows : rows.val = 0) :
    m.spritePixels x y rows = [] := by
  have hempty : m.bytesAtIndex 0 = [] :=
    List.eq_nil_of_length_eq_zero (Nat.le_zero.mp (m.length_bytesAtIndex_le 0))
  rw [spritePixels, hrows, hempty]
  rfl

/-- The failure of drawing. A sprite without rows passes the check on memory wherever
it starts, so its slice may still be missing. -/
def drawFailure? (m : Machine) (x y rows : Fin 16) : Option Failure :=
  if rows.val = 0 then if 4096 < m.index.toNat then some .trap else none
  else
    match m.spanFailure? rows with
    | some failure => some failure
    | none =>
        ((m.spritePixels x y rows).find? fun i => decide (Screen.size ≤ i)).map
          fun i => .error (.pixelOutside i)

def withSprite (m : Machine) (x y rows : Fin 16) : Machine :=
  let plotted := m.screen.flipAll (m.spritePixels x y rows)
  { m with screen := plotted.2, registers := m.registers.setFlag plotted.1, drawn := true }

end Machine

namespace Instruction

open Machine

/-!
## The three functions
-/

def failure? (m : Machine) : Instruction → Option Failure
  | .ret => if m.stack.depth = 0 then some (.error .stackEmpty) else none
  | .call _ => if m.stack.depth = 16 then some (.error (.stackFull 16)) else none
  | .skipIf condition =>
      match condition.holds m with
      | .ok _ => none
      | .error cause => some (.error cause)
  | .draw x y rows => m.drawFailure? x y rows
  | .storeDecimal _ => m.spanFailure? 3
  | .storeRegisters x | .loadRegisters x => m.spanFailure? (x.val + 1)
  | _ => none

def target (m : Machine) : Instruction → UInt16
  | .ret => m.stack.entries.headD 0
  | .jump target | .call target => target.toWord
  | .jumpOffset base => base.toWord + (m.registers.get offsetRegister).toUInt16
  | .skipIf condition =>
      match condition.holds m with
      | .ok true => m.pc + 4
      | _ => m.pc + 2
  | .awaitKey _ =>
      match m.keys.lowestDown? with
      | some _ => m.pc + 2
      | none => m.pc
  | _ => m.pc + 2

/-- The machine that an instruction leaves if it does not fail, with the program counter
still at its word. -/
def effect (m : Machine) : Instruction → Machine
  | .clearScreen =>
      { m with screen := Screen.blank, drawn := true, outbox := Outbox.single .clearDisplay }
  | .ret => { m with stack := m.stack.popped }
  | .call _ => { m with stack := m.stack.pushed (m.pc + 2) }
  | .routine _ | .jump _ | .jumpOffset _ | .skipIf _ => m
  | .setByte x byte => { m with registers := m.registers.put x byte }
  | .addByte x byte => { m with registers := m.registers.put x (m.registers.get x + byte) }
  | .binary op x y => { m with registers := m.registers.combine op x y }
  | .unary op x => { m with registers := m.registers.change op x }
  | .setIndex address => { m with index := address.toWord }
  | .random x mask =>
      let drawn := m.generator.next
      { m with generator := drawn.2, registers := m.registers.put x (drawn.1 &&& mask) }
  | .draw x y rows => m.withSprite x y rows
  | .readDelay x => { m with registers := m.registers.put x m.delayTimer }
  | .awaitKey x =>
      match m.keys.lowestDown? with
      | some key => { m with registers := m.registers.put x (UInt8.ofNat key.val) }
      | none => { m with outbox := Outbox.single .awaitKey }
  | .setDelay x => { m with delayTimer := m.registers.get x }
  | .setSound x => { m with soundTimer := m.registers.get x }
  | .addIndex x => { m with index := m.index + (m.registers.get x).toUInt16 }
  | .pointToGlyph x =>
      { m with index := Font.base + Font.glyphSize * (m.registers.get x).toUInt16 }
  | .storeDecimal x =>
      { m with memory := m.memory.write m.index.toNat (decimalDigits (m.registers.get x)) }
  | .storeRegisters x =>
      { m with
        memory := m.memory.write m.index.toNat (m.registers.toList.take (x.val + 1)) }
  | .loadRegisters x =>
      { m with registers := m.registers.write 0 (m.bytesAtIndex (x.val + 1)) }

def result (m : Machine) (instruction : Instruction) :
    EStateM.Result Failure Machine UInt16 :=
  Failure.guarded (instruction.failure? m) m (instruction.target m) (instruction.effect m)

end Instruction

end Chip8
