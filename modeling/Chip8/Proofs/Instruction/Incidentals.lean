import Chip8.Machine.Cycle
import Chip8.Proofs.Instruction.Meaning

/-!
# What instructions do not read

The sound timer, the drawing flag, the noted word and the outbox are there for the host.
An instruction fails, goes on and changes the other parts in the same way whatever they
hold.
-/

namespace Chip8

namespace Machine

/-- The machines differ at most in the sound timer, the drawing flag, the noted word and
the outbox. -/
def Alike (m other : Machine) : Prop :=
  exists soundTimer drawn opcode outbox, other = { m with soundTimer, drawn, opcode, outbox }

theorem alike_fetched (m : Machine) (word : UInt16) : m.Alike (m.fetched word) :=
  ⟨_, _, _, _, rfl⟩

end Machine

namespace Instruction

open Machine

variable {m other : Machine}

theorem failure?_of_alike (h : m.Alike other) (instruction : Instruction) :
    instruction.failure? other = instruction.failure? m := by
  rcases h with ⟨soundTimer, drawn, opcode, outbox, rfl⟩
  cases instruction with
  | skipIf condition => cases condition <;> rfl
  | _ => rfl

theorem target_of_alike (h : m.Alike other) (instruction : Instruction) :
    instruction.target other = instruction.target m := by
  rcases h with ⟨soundTimer, drawn, opcode, outbox, rfl⟩
  cases instruction with
  | skipIf condition => cases condition <;> rfl
  | _ => rfl

theorem exists_effect_of_soundTimer (m : Machine) (soundTimer : UInt8)
    (instruction : Instruction) :
    exists after,
      instruction.effect { m with soundTimer } =
        { instruction.effect m with soundTimer := after } := by
  cases instruction with
  | setSound x => exact ⟨m.registers.get x, rfl⟩
  | awaitKey x =>
      refine ⟨soundTimer, ?_⟩
      unfold effect
      dsimp only
      split
      · rfl
      · rfl
  | _ => exact ⟨soundTimer, rfl⟩

end Instruction

end Chip8
