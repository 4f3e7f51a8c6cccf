import Chip8.Machine.Cycle
import Chip8.Proofs.Instruction.Execution
import Chip8.Proofs.Instruction.Incidentals
import Chip8.Proofs.Instruction.Spelling

/-!
# The cases of a cycle

A cycle goes one of four ways: the program counter is outside memory, the word stands
for nothing, its instruction fails, or its instruction is executed. Each way comes with
the conditions under which it is taken and with the whole result, so that nothing about
cycles needs to look into fetching, decoding or executing again.
-/

namespace Chip8

namespace Memory

variable {memory : Memory} {address word : UInt16}

theorem word?_eq_none_iff : memory.word? address = none ↔ 4094 < address.toNat := by
  unfold word?
  split
  · rename_i hinside
    constructor
    · intro h
      cases h
    · intro houtside
      lia
  · rename_i houtside
    exact ⟨fun _ => by lia, fun _ => rfl⟩

theorem address_le_of_word? (h : memory.word? address = some word) :
    address.toNat ≤ 4094 := by
  apply Nat.le_of_not_lt
  intro houtside
  rw [word?_eq_none_iff.mpr houtside] at h
  cases h

end Memory

namespace Instruction

open Machine

variable {m : Machine} {word : UInt16}

/-!
## Fetching does not matter to an instruction
-/

theorem failure?_fetched (instruction : Instruction) :
    instruction.failure? (m.fetched word) = instruction.failure? m :=
  failure?_of_alike (alike_fetched m word) instruction

theorem target_fetched (instruction : Instruction) :
    instruction.target (m.fetched word) = instruction.target m :=
  target_of_alike (alike_fetched m word) instruction

end Instruction

namespace Machine

variable {m : Machine} {word : UInt16}

def passed (m : Machine) (word : UInt16) : Machine :=
  aged { m.fetched word with pc := if passesOver word then m.pc + 2 else m.pc }

def executed (m : Machine) (word : UInt16) (instruction : Instruction) : Machine :=
  aged { instruction.effect (m.fetched word) with pc := instruction.target m }

/-!
## One equation for each case
-/

theorem perform_of_unknown (hpc : m.pc.toNat ≤ 4094)
    (hunknown : Instruction.ofWord? word = none) :
    perform word m =
      .ok (.diagnosed (.noInstruction word))
        { m with pc := if passesOver word then m.pc + 2 else m.pc } := by
  have hdecode : Instruction.decode word = .error (.noInstruction word) := by
    rw [Instruction.decode, hunknown]
  rw [perform, hdecode]
  by_cases hpasses : passesOver word = true
  · simp only [hpasses, if_true, Failure.bind_apply, Failure.get_apply, next?_eq hpc,
      Failure.orTrap_some]
    rfl
  · simp only [hpasses]
    rfl

theorem perform_of_known {instruction : Instruction} (hpc : m.pc.toNat ≤ 4094)
    (hempty : m.outbox = Outbox.empty)
    (hknown : Instruction.ofWord? word = some instruction) :
    perform word m =
      Failure.guarded (instruction.failure? m) m .executed
        { instruction.effect m with pc := instruction.target m } := by
  have hdecode : Instruction.decode word = .ok instruction := by
    rw [Instruction.decode, hknown]
  rw [perform, hdecode]
  have hexecute := execute_eq hpc hempty instruction
  unfold Instruction.result at hexecute
  cases hfailure : instruction.failure? m with
  | none =>
      rw [hfailure] at hexecute
      exact Failure.bind_of_ok hexecute
  | some failure =>
      rw [hfailure] at hexecute
      exact Failure.bind_of_error hexecute

theorem cycle_of_unknown (hword : m.memory.word? m.pc = some word)
    (hunknown : Instruction.ofWord? word = none) :
    cycle m = .ok (.diagnosed (.noInstruction word)) (m.passed word) := by
  have hpc : (m.fetched word).pc.toNat ≤ 4094 := Memory.address_le_of_word? hword
  rw [cycle_of_word hword, perform_of_unknown hpc hunknown]
  rfl

theorem cycle_of_known {instruction : Instruction}
    (hword : m.memory.word? m.pc = some word)
    (hknown : Instruction.ofWord? word = some instruction) :
    cycle m =
      Failure.guarded (instruction.failure? m) (m.fetched word) .executed
        (m.executed word instruction) := by
  have hpc : (m.fetched word).pc.toNat ≤ 4094 := Memory.address_le_of_word? hword
  rw [cycle_of_word hword, perform_of_known hpc rfl hknown,
    Instruction.failure?_fetched, Instruction.target_fetched]
  cases instruction.failure? m with
  | none => rfl
  | some failure => rfl

/-!
## The cases
-/

inductive CycleCase (m : Machine) : Prop where
  | outside (hpc : 4094 < m.pc.toNat)
      (hcycle : cycle m = .ok (.diagnosed (.counterOutside m.pc)) m.begun)
  | unknown (word : UInt16) (hword : m.memory.word? m.pc = some word)
      (hunknown : Instruction.ofWord? word = none)
      (hcycle : cycle m = .ok (.diagnosed (.noInstruction word)) (m.passed word))
  | failed (word : UInt16) (instruction : Instruction) (failure : Failure)
      (hword : m.memory.word? m.pc = some word) (hspelled : instruction.SpelledBy word)
      (hfailure : instruction.failure? m = some failure)
      (hcycle : cycle m = .error failure (m.fetched word))
  | executed (word : UInt16) (instruction : Instruction)
      (hword : m.memory.word? m.pc = some word) (hspelled : instruction.SpelledBy word)
      (hfailure : instruction.failure? m = none)
      (hcycle : cycle m = .ok .executed (m.executed word instruction))

theorem cycle_cases (m : Machine) : CycleCase m := by
  cases hword : m.memory.word? m.pc with
  | none =>
      exact .outside (Memory.word?_eq_none_iff.mp hword) (cycle_of_outside hword)
  | some word =>
      cases hknown : Instruction.ofWord? word with
      | none => exact .unknown word hword hknown (cycle_of_unknown hword hknown)
      | some instruction =>
          have hcycle := cycle_of_known hword hknown
          have hspelled := Instruction.ofWord?_eq_some_iff.mp hknown
          cases hfailure : instruction.failure? m with
          | none =>
              rw [hfailure] at hcycle
              exact .executed word instruction hword hspelled hfailure hcycle
          | some failure =>
              rw [hfailure] at hcycle
              exact .failed word instruction failure hword hspelled hfailure hcycle

end Machine

end Chip8
