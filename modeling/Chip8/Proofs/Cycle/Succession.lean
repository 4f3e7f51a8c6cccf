import Chip8.Proofs.Cycle.Cases
import Chip8.Proofs.Host.Operation
import Mathlib.Logic.Function.Iterate

/-!
# Cycles in a row

The machine after a cycle and after any number of them, and the word that a cycle
executes. A cycle that fails counts like any other, and the next one goes on from what
it left.
-/

namespace Chip8

namespace Machine

variable {m after : Machine} {word : UInt16} {outcome : Outcome} {failure : Failure}

def cycled (m : Machine) : Machine :=
  Failure.stateOf m.cycle

def afterCycles (m : Machine) (count : Nat) : Machine :=
  Nat.iterate cycled count m

/-- The word that the next cycle executes. There is none if the cycle is diagnosed or
fails. -/
def executedWord? (m : Machine) : Option UInt16 :=
  match m.cycle with
  | .ok .executed _ => m.memory.word? m.pc
  | _ => none

theorem cycled_of_ok (h : m.cycle = .ok outcome after) : m.cycled = after := by
  rw [cycled, h]
  rfl

theorem cycled_of_error (h : m.cycle = .error failure after) : m.cycled = after := by
  rw [cycled, h]
  rfl

theorem afterCycles_zero : m.afterCycles 0 = m :=
  rfl

theorem afterCycles_succ (m : Machine) (count : Nat) :
    m.afterCycles (count + 1) = (m.afterCycles count).cycled :=
  Function.iterate_succ_apply' cycled count m

theorem afterCycles_cycled (m : Machine) (count : Nat) :
    m.cycled.afterCycles count = m.afterCycles (count + 1) :=
  (Function.iterate_succ_apply cycled count m).symm

theorem afterCycles_add (m : Machine) (first second : Nat) :
    (m.afterCycles first).afterCycles second = m.afterCycles (first + second) := by
  rw [Nat.add_comm]
  exact (Function.iterate_add_apply cycled second first m).symm

/-!
## Cycles that execute a word, and cycles that do not
-/

theorem executedWord?_of_executed (hword : m.memory.word? m.pc = some word)
    (hcycle : m.cycle = .ok .executed after) : m.executedWord? = some word := by
  rw [executedWord?, hcycle]
  exact hword

theorem executedWord?_of_diagnosed {cause : Error}
    (hcycle : m.cycle = .ok (.diagnosed cause) after) : m.executedWord? = none := by
  rw [executedWord?, hcycle]

theorem executedWord?_of_error (hcycle : m.cycle = .error failure after) :
    m.executedWord? = none := by
  rw [executedWord?, hcycle]

theorem exists_of_executedWord? (h : m.executedWord? = some word) :
    exists instruction : Instruction,
      m.memory.word? m.pc = some word ∧ instruction.SpelledBy word ∧
        instruction.failure? m = none ∧ m.cycled = m.executed word instruction := by
  cases cycle_cases m with
  | outside _ hcycle | unknown _ _ _ hcycle =>
      rw [executedWord?_of_diagnosed hcycle] at h
      cases h
  | failed _ _ _ _ _ _ hcycle =>
      rw [executedWord?_of_error hcycle] at h
      cases h
  | executed fetched instruction hword hspelled hfailure hcycle =>
      rw [executedWord?_of_executed hword hcycle] at h
      cases h
      exact ⟨instruction, hword, hspelled, hfailure, cycled_of_ok hcycle⟩

theorem cycled_of_idle (h : m.executedWord? = none) :
    exists pc opcode delayTimer soundTimer,
      m.cycled =
        { m with pc, opcode, delayTimer, soundTimer, drawn := false,
                 outbox := Outbox.empty } := by
  cases cycle_cases m with
  | outside _ hcycle | unknown _ _ _ hcycle =>
      rw [cycled_of_ok hcycle]
      exact ⟨_, _, _, _, rfl⟩
  | failed _ _ _ _ _ _ hcycle =>
      rw [cycled_of_error hcycle]
      exact ⟨_, _, _, _, rfl⟩
  | executed _ _ hword _ _ hcycle =>
      rw [executedWord?_of_executed hword hcycle] at h
      cases h

end Machine

end Chip8
