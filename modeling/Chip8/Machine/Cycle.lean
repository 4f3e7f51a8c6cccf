import Chip8.Instruction.Decoding
import Chip8.Machine.Execution

/-!
# Cycles

A cycle fetches the word at the program counter, decodes it and executes it, and lets
the timers count down. Not every cycle executes an instruction: the program counter may
have left memory, and then nothing happens, or the word may stand for nothing, and then
only time passes. Both are diagnoses. A cycle that fails stops before the timers.
-/

namespace Chip8

inductive Outcome where
  | executed
  | diagnosed (cause : Error)
  deriving DecidableEq, Repr

namespace Machine

/-- Whether the machine goes on behind a word that stands for nothing. It does not in
the arithmetic and the key family: there the same word is fetched again. -/
def passesOver (word : UInt16) : Bool :=
  Opcode.family word != 0x8 && Opcode.family word != 0xE

def setPc (pc : UInt16) : MachineM Unit :=
  modify fun m => { m with pc }

def begun (m : Machine) : Machine :=
  { m with outbox := Outbox.empty, drawn := false }

def fetched (m : Machine) (word : UInt16) : Machine :=
  { m.begun with opcode := word }

def perform (word : UInt16) : MachineM Outcome := do
  match Instruction.decode word with
  | .ok instruction =>
      setPc (← execute instruction)
      return .executed
  | .error cause =>
      if passesOver word then
        setPc (← Failure.orTrap (Word.add? (← get).pc 2))
      return .diagnosed cause

def cycle : MachineM Outcome := do
  modify begun
  let m ← get
  match m.memory.word? m.pc with
  | none => return .diagnosed (.counterOutside m.pc)
  | some word =>
      set { m with opcode := word }
      let outcome ← perform word
      countDownTimers
      return outcome

/-! ## A cycle in one equation -/

theorem cycle_of_outside {m : Machine} (h : m.memory.word? m.pc = none) :
    cycle m = .ok (.diagnosed (.counterOutside m.pc)) m.begun := by
  have hword : m.begun.memory.word? m.begun.pc = none := h
  simp only [cycle, Failure.bind_apply, Failure.modify_apply, Failure.get_apply, hword]
  rfl

theorem cycle_of_word {m : Machine} {word : UInt16} (h : m.memory.word? m.pc = some word) :
    cycle m =
      match perform word (m.fetched word) with
      | .ok outcome after => .ok outcome after.aged
      | .error failure after => .error failure after := by
  have hword : m.begun.memory.word? m.begun.pc = some word := h
  simp only [cycle, fetched, countDownTimers, Failure.bind_apply, Failure.modify_apply,
    Failure.get_apply, Failure.set_apply, Failure.pure_apply, hword]
  generalize perform word _ = result
  cases result with
  | ok outcome after => rfl
  | error failure after => rfl

end Machine

end Chip8
