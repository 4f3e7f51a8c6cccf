import Chip8.Proofs.Instruction.Spelling
import Chip8.Proofs.Sprite.Pixels

/-!
# When an instruction fails

The faults a word can meet, with the digits of the word, the condition on the machine
and the value that is reported. An instruction reports nothing else, and it traps only
on a sprite without rows behind the end of memory.
-/

namespace Chip8

namespace Machine

variable {m : Machine}

/-!
## Single checks
-/

theorem spanFailure?_eq_some_iff {len : Nat} {failure : Failure} :
    m.spanFailure? len = some failure ↔
      4096 < m.index.toNat + len ∧
        failure = .error (.addressOutside (m.index.toNat + len - 1)) := by
  unfold spanFailure?
  split
  · rename_i hlong
    constructor
    · intro h
      cases h
      exact ⟨hlong, rfl⟩
    · intro h
      rw [h.2]
  · rename_i hfit
    constructor
    · intro h
      cases h
    · intro h
      exact absurd h.1 hfit

theorem spanFailure?_of_fit {len : Nat} (hfit : m.index.toNat + len ≤ 4096) :
    m.spanFailure? len = none :=
  if_neg (Nat.not_lt_of_le hfit)

theorem drawFailure?_of_long {x y rows : Fin 16} (hlong : 4096 < m.index.toNat + rows.val) :
    m.drawFailure? x y rows =
      if rows.val = 0 then some .trap
      else some (.error (.addressOutside (m.index.toNat + rows.val - 1))) := by
  unfold drawFailure?
  split
  · rename_i hrows
    rw [hrows] at hlong
    exact if_pos hlong
  · rw [spanFailure?_eq_some_iff.mpr ⟨hlong, rfl⟩]

theorem drawFailure?_of_fit {x y rows : Fin 16} (hfit : m.index.toNat + rows.val ≤ 4096) :
    m.drawFailure? x y rows =
      ((m.spritePixels x y rows).find? fun i => decide (Screen.size ≤ i)).map
        fun i => .error (.pixelOutside i) := by
  unfold drawFailure?
  split
  · rename_i hrows
    rw [hrows, Nat.add_zero] at hfit
    rw [if_neg (Nat.not_lt_of_le hfit), spritePixels_zero hrows]
    rfl
  · rw [spanFailure?_of_fit hfit]

theorem drawFailure?_eq_trap_iff {x y rows : Fin 16} :
    m.drawFailure? x y rows = some .trap ↔ rows.val = 0 ∧ 4096 < m.index.toNat := by
  by_cases hlong : 4096 < m.index.toNat + rows.val
  · rw [drawFailure?_of_long hlong]
    split
    · rename_i hrows
      rw [hrows] at hlong
      exact ⟨fun _ => ⟨hrows, hlong⟩, fun _ => rfl⟩
    · rename_i hrows
      constructor
      · intro h
        cases h
      · intro h
        exact absurd h.1 hrows
  · rw [drawFailure?_of_fit (Nat.le_of_not_lt hlong)]
    constructor
    · intro h
      rcases Option.map_eq_some_iff.mp h with ⟨i, _, hfailure⟩
      cases hfailure
    · intro h
      exact absurd (Nat.lt_of_lt_of_le h.2 (Nat.le_add_right _ _)) hlong

theorem drawFailure?_eq_error_iff {x y rows : Fin 16} {cause : Error} :
    m.drawFailure? x y rows = some (.error cause) ↔
      (rows.val ≠ 0 ∧ 4096 < m.index.toNat + rows.val ∧
        cause = .addressOutside (m.index.toNat + rows.val - 1)) ∨
      (m.index.toNat + rows.val ≤ 4096 ∧
        exists i, IsLeast {j | j ∈ m.litIndices x y rows ∧ 2048 ≤ j} i ∧
          cause = .pixelOutside i) := by
  by_cases hlong : 4096 < m.index.toNat + rows.val
  · rw [drawFailure?_of_long hlong]
    have hnot := Nat.not_le_of_lt hlong
    split
    · rename_i hrows
      constructor
      · intro h
        cases h
      · intro h
        rcases h with ⟨hne, _⟩ | ⟨hfit, _⟩
        · exact absurd hrows hne
        · exact absurd hfit hnot
    · rename_i hrows
      constructor
      · intro h
        cases h
        exact Or.inl ⟨hrows, hlong, rfl⟩
      · intro h
        rcases h with ⟨_, _, rfl⟩ | ⟨hfit, _⟩
        · rfl
        · exact absurd hfit hnot
  · have hfit := Nat.le_of_not_lt hlong
    rw [drawFailure?_of_fit hfit, Option.map_eq_some_iff]
    constructor
    · intro h
      rcases h with ⟨i, hfound, hfailure⟩
      cases hfailure
      exact Or.inr ⟨hfit, i, (find?_spritePixels_eq_some_iff hfit).mp hfound, rfl⟩
    · intro h
      rcases h with ⟨_, hlonger, _⟩ | ⟨_, i, hleast, rfl⟩
      · exact absurd hlonger hlong
      · exact ⟨i, (find?_spritePixels_eq_some_iff hfit).mpr hleast, rfl⟩

/-!
## The faults of a word
-/

inductive Fault (m : Machine) (word : UInt16) : Error → Prop where
  | emptyReturn (hfamily : Opcode.family word = 0x0) (hlow : (Opcode.low word).val = 0xE)
      (hdepth : m.stack.depth = 0) : Fault m word .stackEmpty
  | fullCall (hfamily : Opcode.family word = 0x2) (hdepth : m.stack.depth = 16) :
      Fault m word (.stackFull 16)
  | keyNumber (hfamily : Opcode.family word = 0xE)
      (hlow : (Opcode.low word).val = 0xE ∨ (Opcode.low word).val = 0x1)
      (hkey : 15 < (m.registers.get (Opcode.x word)).toNat) :
      Fault m word (.noSuchKey (m.registers.get (Opcode.x word)).toNat)
  | digitSpan (hfamily : Opcode.family word = 0xF)
      (hbyte : (Opcode.byte word).toNat = 0x33) (hlong : 4095 < m.index.toNat + 2) :
      Fault m word (.addressOutside (m.index.toNat + 2))
  | registerSpan (hfamily : Opcode.family word = 0xF)
      (hbyte : (Opcode.byte word).toNat = 0x55 ∨ (Opcode.byte word).toNat = 0x65)
      (hlong : 4095 < m.index.toNat + (Opcode.x word).val) :
      Fault m word (.addressOutside (m.index.toNat + (Opcode.x word).val))
  | spriteSpan (hfamily : Opcode.family word = 0xD) (hrows : 1 ≤ (Opcode.low word).val)
      (hlong : 4096 < m.index.toNat + (Opcode.low word).val) :
      Fault m word (.addressOutside (m.index.toNat + (Opcode.low word).val - 1))
  | spritePixel {i : Nat} (hfamily : Opcode.family word = 0xD)
      (hfit : m.index.toNat + (Opcode.low word).val ≤ 4096)
      (hleast : IsLeast
        {j | j ∈ m.litIndices (Opcode.x word) (Opcode.y word) (Opcode.low word) ∧ 2048 ≤ j}
        i) :
      Fault m word (.pixelOutside i)

end Machine

theorem Keypad.isDown_eq_error_iff {keys : Keypad} {key : Nat} {cause : Error} :
    keys.isDown key = .error cause ↔ 15 < key ∧ cause = .noSuchKey key := by
  unfold isDown
  split
  · rename_i hkey
    constructor
    · intro h
      cases h
    · intro h
      exact absurd h.1 (Nat.not_lt_of_le (Nat.le_of_lt_succ hkey))
  · rename_i hkey
    constructor
    · intro h
      cases h
      exact ⟨Nat.lt_of_not_le fun hle => hkey (Nat.lt_succ_of_le hle), rfl⟩
    · intro h
      rw [h.2]

namespace Condition

variable {m : Machine} {word : UInt16} {condition : Condition} {cause : Error}

theorem fault_of_holds (hspelled : condition.SpelledBy word)
    (h : condition.holds m = .error cause) : m.Fault word cause := by
  cases condition with
  | isByte | isNotByte | same | differ => cases h
  | keyDown x =>
      rcases hspelled with ⟨hfamily, hlow, rfl⟩
      rcases Keypad.isDown_eq_error_iff.mp h with ⟨hkey, rfl⟩
      exact .keyNumber hfamily (Or.inl hlow) hkey
  | keyUp x =>
      rcases hspelled with ⟨hfamily, hlow, rfl⟩
      have hflipped : (m.keys.isDown (m.registers.get (Opcode.x word)).toNat).map not =
          .error cause := h
      cases hdown : m.keys.isDown (m.registers.get (Opcode.x word)).toNat with
      | ok down =>
          rw [hdown] at hflipped
          cases hflipped
      | error reported =>
          rw [hdown] at hflipped
          cases hflipped
          rcases Keypad.isDown_eq_error_iff.mp hdown with ⟨hkey, rfl⟩
          exact .keyNumber hfamily (Or.inr hlow) hkey

end Condition

namespace Instruction

variable {m : Machine} {word : UInt16} {instruction other : Instruction} {cause : Error}

/-!
## The failures of an instruction
-/

theorem SpelledBy.unique (h : instruction.SpelledBy word) (hother : other.SpelledBy word) :
    instruction = other := by
  have hsame := ofWord?_of_spelledBy h
  rw [ofWord?_of_spelledBy hother] at hsame
  cases hsame
  rfl

theorem failure?_eq_trap_iff :
    instruction.failure? m = some .trap ↔
      exists x y rows, instruction = .draw x y rows ∧ rows.val = 0 ∧
        4096 < m.index.toNat := by
  constructor
  · intro h
    cases instruction with
    | draw x y rows => exact ⟨x, y, rows, rfl, Machine.drawFailure?_eq_trap_iff.mp h⟩
    | skipIf condition =>
        unfold failure? at h
        dsimp only at h
        split at h <;> cases h
    | ret | call target =>
        unfold failure? at h
        dsimp only at h
        split at h <;> cases h
    | storeDecimal x | storeRegisters x | loadRegisters x =>
        cases (Machine.spanFailure?_eq_some_iff.mp h).2
    | _ => cases h
  · intro h
    rcases h with ⟨x, y, rows, rfl, hrows, hbeyond⟩
    exact Machine.drawFailure?_eq_trap_iff.mpr ⟨hrows, hbeyond⟩

theorem fault_of_failure? (hspelled : instruction.SpelledBy word)
    (h : instruction.failure? m = some (.error cause)) : m.Fault word cause := by
  cases instruction with
  | ret =>
      rcases hspelled with ⟨hfamily, hlow⟩
      rcases Option.ite_none_right_eq_some.mp h with ⟨hdepth, hcause⟩
      cases hcause
      exact .emptyReturn hfamily hlow hdepth
  | call target =>
      rcases Option.ite_none_right_eq_some.mp h with ⟨hdepth, hcause⟩
      cases hcause
      exact .fullCall hspelled.1 hdepth
  | skipIf condition =>
      unfold failure? at h
      dsimp only at h
      cases hholds : condition.holds m with
      | ok holds =>
          rw [hholds] at h
          cases h
      | error reported =>
          rw [hholds] at h
          cases h
          exact Condition.fault_of_holds hspelled hholds
  | draw x y rows =>
      rcases hspelled with ⟨hfamily, rfl, rfl, rfl⟩
      rcases Machine.drawFailure?_eq_error_iff.mp h with hspan | hpixel
      · rcases hspan with ⟨hrows, hlong, rfl⟩
        exact .spriteSpan hfamily (Nat.one_le_iff_ne_zero.mpr hrows) hlong
      · rcases hpixel with ⟨hfit, i, hleast, rfl⟩
        exact .spritePixel hfamily hfit hleast
  | storeDecimal x =>
      rcases hspelled with ⟨hfamily, hbyte, _⟩
      rcases Machine.spanFailure?_eq_some_iff.mp h with ⟨hlong, hcause⟩
      cases hcause
      exact .digitSpan hfamily hbyte (Nat.lt_of_succ_lt_succ hlong)
  | storeRegisters x =>
      rcases hspelled with ⟨hfamily, hbyte, rfl⟩
      rcases Machine.spanFailure?_eq_some_iff.mp h with ⟨hlong, hcause⟩
      cases hcause
      exact .registerSpan hfamily (Or.inl hbyte) (Nat.lt_of_succ_lt_succ hlong)
  | loadRegisters x =>
      rcases hspelled with ⟨hfamily, hbyte, rfl⟩
      rcases Machine.spanFailure?_eq_some_iff.mp h with ⟨hlong, hcause⟩
      cases hcause
      exact .registerSpan hfamily (Or.inr hbyte) (Nat.lt_of_succ_lt_succ hlong)
  | _ => cases h

theorem failure?_skipIf_of_error {condition : Condition}
    (h : condition.holds m = .error cause) :
    (Instruction.skipIf condition).failure? m = some (.error cause) := by
  unfold failure?
  dsimp only
  rw [h]

theorem exists_failure?_of_fault (h : m.Fault word cause) :
    exists instruction : Instruction, instruction.SpelledBy word ∧
      instruction.failure? m = some (.error cause) := by
  cases h with
  | emptyReturn hfamily hlow hdepth => exact ⟨.ret, ⟨hfamily, hlow⟩, if_pos hdepth⟩
  | fullCall hfamily hdepth =>
      exact ⟨.call (Opcode.address word), ⟨hfamily, rfl⟩, if_pos hdepth⟩
  | keyNumber hfamily hlow hkey =>
      have hdown : m.keys.isDown (m.registers.get (Opcode.x word)).toNat =
          .error (.noSuchKey (m.registers.get (Opcode.x word)).toNat) :=
        Keypad.isDown_eq_error_iff.mpr ⟨hkey, rfl⟩
      rcases hlow with hlow | hlow
      · refine ⟨.skipIf (.keyDown (Opcode.x word)), ⟨hfamily, hlow, rfl⟩, ?_⟩
        exact failure?_skipIf_of_error hdown
      · refine ⟨.skipIf (.keyUp (Opcode.x word)), ⟨hfamily, hlow, rfl⟩, ?_⟩
        apply failure?_skipIf_of_error
        show (m.keys.isDown _).map not = _
        rw [hdown]
        rfl
  | digitSpan hfamily hbyte hlong =>
      refine ⟨.storeDecimal (Opcode.x word), ⟨hfamily, hbyte, rfl⟩, ?_⟩
      exact Machine.spanFailure?_eq_some_iff.mpr ⟨Nat.succ_lt_succ hlong, rfl⟩
  | registerSpan hfamily hbyte hlong =>
      have hspan : m.spanFailure? ((Opcode.x word).val + 1) =
          some (.error (.addressOutside (m.index.toNat + (Opcode.x word).val))) :=
        Machine.spanFailure?_eq_some_iff.mpr ⟨Nat.succ_lt_succ hlong, rfl⟩
      rcases hbyte with hbyte | hbyte
      · exact ⟨.storeRegisters (Opcode.x word), ⟨hfamily, hbyte, rfl⟩, hspan⟩
      · exact ⟨.loadRegisters (Opcode.x word), ⟨hfamily, hbyte, rfl⟩, hspan⟩
  | spriteSpan hfamily hrows hlong =>
      refine ⟨.draw _ _ _, ⟨hfamily, rfl, rfl, rfl⟩, ?_⟩
      apply Machine.drawFailure?_eq_error_iff.mpr
      exact Or.inl ⟨Nat.one_le_iff_ne_zero.mp hrows, hlong, rfl⟩
  | spritePixel hfamily hfit hleast =>
      refine ⟨.draw _ _ _, ⟨hfamily, rfl, rfl, rfl⟩, ?_⟩
      apply Machine.drawFailure?_eq_error_iff.mpr
      exact Or.inr ⟨hfit, _, hleast, rfl⟩

theorem failure?_eq_error_iff (hspelled : instruction.SpelledBy word) :
    instruction.failure? m = some (.error cause) ↔ m.Fault word cause := by
  constructor
  · exact fault_of_failure? hspelled
  · intro h
    rcases exists_failure?_of_fault h with ⟨reporting, hreporting, hfailure⟩
    rw [hspelled.unique hreporting]
    exact hfailure

end Instruction

end Chip8
