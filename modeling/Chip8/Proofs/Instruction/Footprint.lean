import Chip8.Proofs.Instruction.Execution

/-!
# What instructions touch

The parts of a machine that an instruction can change, and how. Everything that is not
mentioned for a part leaves it alone.
-/

namespace Chip8

namespace Instruction

variable {m : Machine} {instruction : Instruction}

theorem exists_effect_awaitKey (m : Machine) (x : Fin 16) :
    exists registers outbox, (awaitKey x).effect m = { m with registers, outbox } := by
  unfold effect
  dsimp only
  split
  · exact ⟨_, _, rfl⟩
  · exact ⟨_, _, rfl⟩

/-!
## The call stack
-/

theorem stack_effect_of_ne (hret : instruction ≠ ret)
    (hcall : forall target, instruction ≠ call target) :
    (instruction.effect m).stack = m.stack := by
  cases instruction with
  | ret => exact absurd rfl hret
  | call target => exact absurd rfl (hcall target)
  | awaitKey x =>
      rcases exists_effect_awaitKey m x with ⟨registers, outbox, heffect⟩
      rw [heffect]
  | _ => rfl

/-!
## The screen
-/

theorem screen_effect_of_ne (hclear : instruction ≠ clearScreen)
    (hdraw : forall x y rows, instruction ≠ draw x y rows) :
    (instruction.effect m).screen = m.screen := by
  cases instruction with
  | clearScreen => exact absurd rfl hclear
  | draw x y rows => exact absurd rfl (hdraw x y rows)
  | awaitKey x =>
      rcases exists_effect_awaitKey m x with ⟨registers, outbox, heffect⟩
      rw [heffect]
  | _ => rfl

/-!
## The generator
-/

theorem generator_effect_of_ne (hrandom : forall x mask, instruction ≠ random x mask) :
    (instruction.effect m).generator = m.generator := by
  cases instruction with
  | random x mask => exact absurd rfl (hrandom x mask)
  | awaitKey x =>
      rcases exists_effect_awaitKey m x with ⟨registers, outbox, heffect⟩
      rw [heffect]
  | _ => rfl

/-!
## The index, the timers and the keys
-/

theorem index_effect_of_ne (hset : forall address, instruction ≠ setIndex address)
    (hadd : forall x, instruction ≠ addIndex x)
    (hglyph : forall x, instruction ≠ pointToGlyph x) :
    (instruction.effect m).index = m.index := by
  cases instruction with
  | setIndex address => exact absurd rfl (hset address)
  | addIndex x => exact absurd rfl (hadd x)
  | pointToGlyph x => exact absurd rfl (hglyph x)
  | awaitKey x =>
      rcases exists_effect_awaitKey m x with ⟨registers, outbox, heffect⟩
      rw [heffect]
  | _ => rfl

theorem delayTimer_effect_of_ne (hset : forall x, instruction ≠ setDelay x) :
    (instruction.effect m).delayTimer = m.delayTimer := by
  cases instruction with
  | setDelay x => exact absurd rfl (hset x)
  | awaitKey x =>
      rcases exists_effect_awaitKey m x with ⟨registers, outbox, heffect⟩
      rw [heffect]
  | _ => rfl

theorem soundTimer_effect_of_ne (hset : forall x, instruction ≠ setSound x) :
    (instruction.effect m).soundTimer = m.soundTimer := by
  cases instruction with
  | setSound x => exact absurd rfl (hset x)
  | awaitKey x =>
      rcases exists_effect_awaitKey m x with ⟨registers, outbox, heffect⟩
      rw [heffect]
  | _ => rfl

theorem keys_effect : (instruction.effect m).keys = m.keys := by
  cases instruction with
  | awaitKey x =>
      rcases exists_effect_awaitKey m x with ⟨registers, outbox, heffect⟩
      rw [heffect]
  | _ => rfl

/-!
## What the host sees

The drawing flag and the requests, and the word that was fetched.
-/

theorem drawn_effect_of_ne (hclear : instruction ≠ clearScreen)
    (hdraw : forall x y rows, instruction ≠ draw x y rows) :
    (instruction.effect m).drawn = m.drawn := by
  cases instruction with
  | clearScreen => exact absurd rfl hclear
  | draw x y rows => exact absurd rfl (hdraw x y rows)
  | awaitKey x =>
      rcases exists_effect_awaitKey m x with ⟨registers, outbox, heffect⟩
      rw [heffect]
  | _ => rfl

theorem outbox_effect_of_ne (hclear : instruction ≠ clearScreen)
    (hawait : forall x, instruction ≠ awaitKey x) :
    (instruction.effect m).outbox = m.outbox := by
  cases instruction with
  | clearScreen => exact absurd rfl hclear
  | awaitKey x => exact absurd rfl (hawait x)
  | _ => rfl

theorem opcode_effect : (instruction.effect m).opcode = m.opcode := by
  cases instruction with
  | awaitKey x =>
      rcases exists_effect_awaitKey m x with ⟨registers, outbox, heffect⟩
      rw [heffect]
  | _ => rfl

end Instruction

end Chip8
