import Chip8.Proofs.Cycle.Cases
import Chip8.Proofs.Host.Loading
import Chip8.Proofs.Registers.FlagArithmetic

/-!
# Operations with a flag in one cycle

The words of family 8 that write the flag. A cycle that fetches one executes it, whatever
the registers hold, and its result is the exact one by the law of its operation.
-/

namespace Chip8

namespace Machine

variable {m : Machine} {word : UInt16}

structure DifferInSecond (word other : UInt16) : Prop where
  family : Opcode.family other = Opcode.family word
  low : (Opcode.low other).val = (Opcode.low word).val
  first : Opcode.x other = Opcode.x word

/-- The operation does the same with any other second register and any content of it. -/
def IgnoresSecond (m after : Machine) (word : UInt16) : Prop :=
  forall (other : Machine) (otherWord : UInt16),
    other.memory.word? other.pc = some otherWord -> DifferInSecond word otherWord ->
    other.registers.get (Opcode.x word) = m.registers.get (Opcode.x word) ->
    exists otherAfter, other.cycle = .ok .executed otherAfter ∧
      forall z, z = Opcode.x word ∨ z = flagRegister ->
        otherAfter.registers.get z = after.registers.get z

inductive FlagOperation (m after : Machine) (word : UInt16) : Prop where
  | sum (hlow : (Opcode.low word).val = 0x4)
      (h : m.registers.Adds after.registers (Opcode.x word) (Opcode.y word))
  | difference (hlow : (Opcode.low word).val = 0x5)
      (h : m.registers.Subtracts after.registers (Opcode.x word) (Opcode.x word)
        (Opcode.y word))
  | half (hlow : (Opcode.low word).val = 0x6)
      (h : m.registers.Halves after.registers (Opcode.x word))
      (hsecond : m.IgnoresSecond after word)
  | reverseDifference (hlow : (Opcode.low word).val = 0x7)
      (h : m.registers.Subtracts after.registers (Opcode.x word) (Opcode.y word)
        (Opcode.x word))
  | double (hlow : (Opcode.low word).val = 0xE)
      (h : m.registers.Doubles after.registers (Opcode.x word))
      (hsecond : m.IgnoresSecond after word)

/-!
## The machine behind an operation
-/

theorem cycle_of_binary {op : BinaryOp} {x y : Register}
    (hword : m.memory.word? m.pc = some word)
    (hspelled : (Instruction.binary op x y).SpelledBy word) :
    exists after, m.cycle = .ok .executed after ∧
      after.registers = m.registers.combine op x y ∧
      forall z, z ≠ x -> z ≠ flagRegister -> after.registers.get z = m.registers.get z :=
  ⟨_, cycle_of_known hword (Instruction.ofWord?_of_spelledBy hspelled), rfl,
    fun _ hz hflag => Registers.get_combine_of_ne hz hflag⟩

theorem cycle_of_unary {op : UnaryOp} {x : Register}
    (hword : m.memory.word? m.pc = some word)
    (hspelled : (Instruction.unary op x).SpelledBy word) :
    exists after, m.cycle = .ok .executed after ∧
      after.registers = m.registers.change op x ∧
      forall z, z ≠ x -> z ≠ flagRegister -> after.registers.get z = m.registers.get z :=
  ⟨_, cycle_of_known hword (Instruction.ofWord?_of_spelledBy hspelled), rfl,
    fun _ hz hflag => Registers.get_change_of_ne hz hflag⟩

theorem ignoresSecond_of_change {after : Machine} {op : UnaryOp}
    (hspelled : (Instruction.unary op (Opcode.x word)).SpelledBy word)
    (hafter : after.registers = m.registers.change op (Opcode.x word)) :
    m.IgnoresSecond after word := by
  intro other otherWord hword hdiffer hsame
  rcases hspelled with ⟨hfamily, hlow, _⟩
  have hother : (Instruction.unary op (Opcode.x word)).SpelledBy otherWord :=
    ⟨hdiffer.family.trans hfamily, hdiffer.low.trans hlow, hdiffer.first.symm⟩
  rcases cycle_of_unary hword hother with ⟨otherAfter, hcycle, hregisters, _⟩
  refine ⟨otherAfter, hcycle, fun z hz => ?_⟩
  rw [hregisters, hafter]
  exact Registers.get_change_congr hsame hz

/-- A cycle that fetches an operation with a flag executes it, and the numbers in its
registers are those of the exact result, also if the flag is among its operands. -/
theorem flag_operations_are_exact (hword : m.memory.word? m.pc = some word)
    (hfamily : Opcode.family word = 0x8)
    (hlow : (0x4 ≤ (Opcode.low word).val ∧ (Opcode.low word).val ≤ 0x7) ∨
      (Opcode.low word).val = 0xE) :
    exists after, m.cycle = .ok .executed after ∧ m.FlagOperation after word ∧
      forall z, z ≠ Opcode.x word -> z ≠ flagRegister ->
        after.registers.get z = m.registers.get z := by
  have hdigit : (Opcode.low word).val = 0x4 ∨ (Opcode.low word).val = 0x5 ∨
      (Opcode.low word).val = 0x6 ∨ (Opcode.low word).val = 0x7 ∨
      (Opcode.low word).val = 0xE := by
    lia
  rcases hdigit with hsum | hdifference | hhalf | hreverse | hdouble
  · have hspelled : (Instruction.binary .add (Opcode.x word) (Opcode.y word)).SpelledBy word :=
      ⟨hfamily, hsum, rfl, rfl⟩
    rcases cycle_of_binary hword hspelled with ⟨after, hcycle, hregisters, hframe⟩
    have hlaw := Registers.adds_combine m.registers (Opcode.x word) (Opcode.y word)
    rw [← hregisters] at hlaw
    exact ⟨after, hcycle, .sum hsum hlaw, hframe⟩
  · have hspelled :
        (Instruction.binary .subtract (Opcode.x word) (Opcode.y word)).SpelledBy word :=
      ⟨hfamily, hdifference, rfl, rfl⟩
    rcases cycle_of_binary hword hspelled with ⟨after, hcycle, hregisters, hframe⟩
    have hlaw := Registers.subtracts_combine m.registers (Opcode.x word) (Opcode.y word)
    rw [← hregisters] at hlaw
    exact ⟨after, hcycle, .difference hdifference hlaw, hframe⟩
  · have hspelled : (Instruction.unary .halve (Opcode.x word)).SpelledBy word :=
      ⟨hfamily, hhalf, rfl⟩
    rcases cycle_of_unary hword hspelled with ⟨after, hcycle, hregisters, hframe⟩
    have hlaw := Registers.halves_change m.registers (Opcode.x word)
    rw [← hregisters] at hlaw
    exact ⟨after, hcycle, .half hhalf hlaw (ignoresSecond_of_change hspelled hregisters),
      hframe⟩
  · have hspelled :
        (Instruction.binary .subtractFrom (Opcode.x word) (Opcode.y word)).SpelledBy word :=
      ⟨hfamily, hreverse, rfl, rfl⟩
    rcases cycle_of_binary hword hspelled with ⟨after, hcycle, hregisters, hframe⟩
    have hlaw := Registers.subtracts_combine_from m.registers (Opcode.x word) (Opcode.y word)
    rw [← hregisters] at hlaw
    exact ⟨after, hcycle, .reverseDifference hreverse hlaw, hframe⟩
  · have hspelled : (Instruction.unary .double (Opcode.x word)).SpelledBy word :=
      ⟨hfamily, hdouble, rfl⟩
    rcases cycle_of_unary hword hspelled with ⟨after, hcycle, hregisters, hframe⟩
    have hlaw := Registers.doubles_change m.registers (Opcode.x word)
    rw [← hregisters] at hlaw
    exact ⟨after, hcycle, .double hdouble hlaw (ignoresSecond_of_change hspelled hregisters),
      hframe⟩

def flagDoubling : Machine :=
  { loaded [0x8F, 0xF4] with
    registers := #v[0, 0, 0, 0, 0, 0, 0, 0, 0, 0, 0, 0, 0, 0, 0, 200] }

theorem flagDoubling_is_exact :
    flagDoubling.memory.word? flagDoubling.pc = some 0x8FF4 ∧
      Opcode.family 0x8FF4 = 0x8 ∧ (Opcode.low 0x8FF4).val = 0x4 ∧
      exists after, flagDoubling.cycle = .ok .executed after ∧
        after.registers.value flagRegister = 2 := by
  have hfit : [(0x8F : UInt8), 0xF4].length ≤ 3584 := by decide
  have hplace : flagDoubling.pc.toNat = 512 + 0 := rfl
  have hhigh : [(0x8F : UInt8), 0xF4][0]? = some 0x8F := rfl
  have hlow : [(0x8F : UInt8), 0xF4][0 + 1]? = some 0xF4 := rfl
  have hword : flagDoubling.memory.word? flagDoubling.pc = some 0x8FF4 :=
    word?_loaded hfit hplace hhigh hlow
  have hdigit : (Opcode.low 0x8FF4).val = 0x4 := by decide
  rcases flag_operations_are_exact hword (by decide) (by decide) with
    ⟨after, hcycle, hoperation, _⟩
  refine ⟨hword, by decide, hdigit, after, hcycle, ?_⟩
  cases hoperation with
  | sum _ h => exact h.both (by decide) (by decide)
  | difference hlow _ | reverseDifference hlow _ | half hlow _ _ | double hlow _ _ =>
      rw [hdigit] at hlow
      cases hlow

end Machine

end Chip8
