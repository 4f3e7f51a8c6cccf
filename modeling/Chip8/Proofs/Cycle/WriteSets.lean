import Chip8.Proofs.Cycle.Succession
import Chip8.Proofs.Instruction.Footprint
import Chip8.Proofs.Registers.Reading

/-!
# Write sets

Which parts of a machine a cycle can change, by the digits of the word that it executes.
A cycle that executes nothing, diagnosed or failed, changes none of them but the timers,
and those by counting down.
-/

namespace Chip8

namespace Opcode

/-!
## Kinds of words
-/

def WritesScreen (word : UInt16) : Prop :=
  (family word = 0x0 ∧ (low word).val = 0x0) ∨ family word = 0xD

def WritesStack (word : UInt16) : Prop :=
  (family word = 0x0 ∧ (low word).val = 0xE) ∨ family word = 0x2

def IsDevice (last : Nat) (word : UInt16) : Prop :=
  family word = 0xF ∧ (byte word).toNat = last

def WritesIndex (word : UInt16) : Prop :=
  family word = 0xA ∨ IsDevice 0x1E word ∨ IsDevice 0x29 word

/-- A word that stores at the address if it stores from `start` on: three digits (`FX33`),
or the registers up to its own (`FX55`). -/
def StoresAt (start address : Nat) (word : UInt16) : Prop :=
  start ≤ address ∧
    ((IsDevice 0x33 word ∧ address ≤ start + 2) ∨
      (IsDevice 0x55 word ∧ address ≤ start + (x word).val))

inductive WritesRegister (z : Register) (word : UInt16) : Prop where
  | operand (hfamily : family word = 0x6 ∨ family word = 0x7 ∨ family word = 0xC)
      (hz : z = x word)
  | combined (hfamily : family word = 0x8) (hlow : (low word).val ≤ 0x3) (hz : z = x word)
  | flagged (hfamily : family word = 0x8)
      (hlow : (0x4 ≤ (low word).val ∧ (low word).val ≤ 0x7) ∨ (low word).val = 0xE)
      (hz : z = x word ∨ z = flagRegister)
  | collision (hfamily : family word = 0xD) (hz : z = flagRegister)
  | device (hkind : IsDevice 0x07 word ∨ IsDevice 0x0A word) (hz : z = x word)
  | loaded (hkind : IsDevice 0x65 word) (hz : z ≤ x word)

end Opcode

namespace Instruction

variable {m : Machine} {word : UInt16} {instruction : Instruction}

/-!
## One instruction
-/

theorem storesAt_of_write {content : List UInt8} {address len : Nat} (h : address < 4096)
    (hlength : content.length = len)
    (hchanged : (m.memory.write m.index.toNat content)[address] ≠ m.memory[address]) :
    m.index.toNat ≤ address ∧ address < m.index.toNat + len := by
  constructor
  · apply Nat.le_of_not_lt
    intro hbefore
    exact hchanged (Bytes.getElem_write_of_outside h (Or.inl hbefore))
  · apply Nat.lt_of_not_le
    intro hbehind
    rw [← hlength] at hbehind
    exact hchanged (Bytes.getElem_write_of_outside h (Or.inr hbehind))

theorem storesAt_of_changed {address : Nat} (h : address < 4096)
    (hspelled : instruction.SpelledBy word)
    (hchanged : (instruction.effect m).memory[address] ≠ m.memory[address]) :
    Opcode.StoresAt m.index.toNat address word := by
  cases instruction with
  | storeDecimal x =>
      rcases storesAt_of_write h rfl hchanged with ⟨hstart, hend⟩
      exact ⟨hstart, Or.inl ⟨⟨hspelled.1, hspelled.2.1⟩, Nat.le_of_lt_succ hend⟩⟩
  | storeRegisters x =>
      have hlength := Machine.length_firstRegisters m.registers x
      rcases storesAt_of_write h hlength hchanged with ⟨hstart, hend⟩
      rcases hspelled with ⟨hfamily, hbyte, rfl⟩
      exact ⟨hstart, Or.inr ⟨⟨hfamily, hbyte⟩, Nat.le_of_lt_succ hend⟩⟩
  | awaitKey x =>
      rcases exists_effect_awaitKey m x with ⟨registers, outbox, heffect⟩
      rw [heffect] at hchanged
      exact absurd rfl hchanged
  | _ => exact absurd rfl hchanged

theorem writesRegister_of_combine {op : BinaryOp} {x y z : Register}
    (hspelled : (binary op x y).SpelledBy word)
    (hchanged : (m.registers.combine op x y).get z ≠ m.registers.get z) :
    Opcode.WritesRegister z word := by
  rcases hspelled with ⟨hfamily, hlow, rfl, rfl⟩
  cases op with
  | copy | or | and | xor =>
      have hz : z = Opcode.x word :=
        Decidable.of_not_not fun hz =>
          hchanged (Registers.get_combine_of_flag?_eq_none rfl hz)
      exact .combined hfamily (by rw [hlow]; decide) hz
  | add | subtract | subtractFrom =>
      have hz : z = Opcode.x word ∨ z = flagRegister := by
        by_contra hz
        rw [not_or] at hz
        exact hchanged (Registers.get_combine_of_ne hz.1 hz.2)
      exact .flagged hfamily (Or.inl (by rw [hlow]; decide)) hz

theorem writesRegister_of_change {op : UnaryOp} {x z : Register}
    (hspelled : (unary op x).SpelledBy word)
    (hchanged : (m.registers.change op x).get z ≠ m.registers.get z) :
    Opcode.WritesRegister z word := by
  rcases hspelled with ⟨hfamily, hlow, rfl⟩
  have hz : z = Opcode.x word ∨ z = flagRegister := by
    by_contra hz
    rw [not_or] at hz
    exact hchanged (Registers.get_change_of_ne hz.1 hz.2)
  cases op with
  | halve => exact .flagged hfamily (Or.inl (by rw [hlow]; decide)) hz
  | double => exact .flagged hfamily (Or.inr hlow) hz

theorem writesRegister_of_load {x z : Register}
    (hspelled : (loadRegisters x).SpelledBy word)
    (hchanged : (m.registers.write 0 (m.bytesAtIndex (x.val + 1))).get z ≠
      m.registers.get z) : Opcode.WritesRegister z word := by
  rcases hspelled with ⟨hfamily, hbyte, rfl⟩
  refine .loaded ⟨hfamily, hbyte⟩ ?_
  apply Nat.le_of_not_lt
  intro hz
  apply hchanged
  apply Registers.get_write_of_le
  exact Nat.le_trans (Machine.length_bytesAtIndex_le m _) hz

theorem writesRegister_of_changed {z : Register} (hspelled : instruction.SpelledBy word)
    (hchanged : (instruction.effect m).registers.get z ≠ m.registers.get z) :
    Opcode.WritesRegister z word := by
  cases instruction with
  | setByte x byte =>
      rcases hspelled with ⟨hfamily, rfl, _⟩
      exact .operand (Or.inl hfamily) (Registers.eq_of_get_put_ne hchanged)
  | addByte x byte =>
      rcases hspelled with ⟨hfamily, rfl, _⟩
      exact .operand (Or.inr (Or.inl hfamily)) (Registers.eq_of_get_put_ne hchanged)
  | random x mask =>
      rcases hspelled with ⟨hfamily, rfl, _⟩
      exact .operand (Or.inr (Or.inr hfamily)) (Registers.eq_of_get_put_ne hchanged)
  | binary op x y => exact writesRegister_of_combine hspelled hchanged
  | unary op x => exact writesRegister_of_change hspelled hchanged
  | draw x y rows => exact .collision hspelled.1 (Registers.eq_of_get_put_ne hchanged)
  | readDelay x =>
      rcases hspelled with ⟨hfamily, hbyte, rfl⟩
      exact .device (Or.inl ⟨hfamily, hbyte⟩) (Registers.eq_of_get_put_ne hchanged)
  | awaitKey x =>
      rcases hspelled with ⟨hfamily, hbyte, rfl⟩
      refine .device (Or.inr ⟨hfamily, hbyte⟩) ?_
      unfold effect at hchanged
      dsimp only at hchanged
      split at hchanged
      · exact Registers.eq_of_get_put_ne hchanged
      · exact absurd rfl hchanged
  | loadRegisters x => exact writesRegister_of_load hspelled hchanged
  | _ => exact absurd rfl hchanged

end Instruction

namespace Machine

variable {m : Machine}

/-!
## One cycle
-/

def Executes (m : Machine) (kind : UInt16 → Prop) : Prop :=
  exists word, m.executedWord? = some word ∧ kind word

theorem executes_of_changed {α : Type} {kind : UInt16 → Prop} (part : Machine → α)
    (hidle : forall (m : Machine) pc opcode delayTimer soundTimer drawn outbox,
      part { m with pc, opcode, delayTimer, soundTimer, drawn, outbox } = part m)
    (hkept : forall word (instruction : Instruction), instruction.SpelledBy word ->
      ¬ kind word -> part (instruction.effect (m.fetched word)) = part (m.fetched word))
    (hchanged : part m.cycled ≠ part m) : m.Executes kind := by
  cases hexecuted : m.executedWord? with
  | none =>
      rcases cycled_of_idle hexecuted with ⟨pc, opcode, delayTimer, soundTimer, hcycled⟩
      rw [hcycled] at hchanged
      exact absurd (hidle m _ _ _ _ _ _) hchanged
  | some word =>
      rcases exists_of_executedWord? hexecuted with ⟨instruction, _, hspelled, _, hcycled⟩
      refine ⟨word, hexecuted, ?_⟩
      by_contra hkind
      apply hchanged
      have hsame := hkept word instruction hspelled hkind
      have heffect : part m.cycled = part (instruction.effect (m.fetched word)) := by
        rw [hcycled]
        exact hidle (instruction.effect (m.fetched word)) _ _ _ _ _ _
      exact heffect.trans (hsame.trans (hidle m _ _ _ _ _ _))

theorem toNat_countDown (timer : UInt8) : (countDown timer).toNat = timer.toNat - 1 := by
  unfold countDown
  split
  · rename_i hzero
    rw [hzero]
    rfl
  · rename_i hrunning
    have hpos : timer.toNat ≠ 0 := fun hzero => hrunning (UInt8.toNat_inj.mp hzero)
    have hle : (1 : UInt8) ≤ timer := UInt8.le_iff_toNat_le.mpr (Nat.pos_of_ne_zero hpos)
    exact UInt8.toNat_sub_of_le timer 1 hle

theorem countDown_of_ne {timer : UInt8} (h : countDown timer ≠ timer) :
    (countDown timer).toNat + 1 = timer.toNat := by
  have hne : (countDown timer).toNat ≠ timer.toNat := fun heq => h (UInt8.toNat_inj.mp heq)
  rw [toNat_countDown] at hne ⊢
  lia

theorem counts_or_executes_of_changed {kind : UInt16 → Prop} (timer : Machine → UInt8)
    (haged : forall m : Machine, timer m.aged = countDown (timer m))
    (hidle : forall (m : Machine) pc opcode drawn outbox,
      timer { m with pc, opcode, drawn, outbox } = timer m)
    (hkept : forall word (instruction : Instruction), instruction.SpelledBy word ->
      ¬ kind word -> timer (instruction.effect (m.fetched word)) = timer (m.fetched word))
    (hchanged : timer m.cycled ≠ timer m) :
    (timer m.cycled).toNat + 1 = (timer m).toNat ∨ m.Executes kind := by
  cases cycle_cases m with
  | outside _ hcycle =>
      rw [cycled_of_ok hcycle] at hchanged
      exact absurd (hidle m _ _ _ _) hchanged
  | failed _ _ _ _ _ _ hcycle =>
      rw [cycled_of_error hcycle] at hchanged
      exact absurd (hidle m _ _ _ _) hchanged
  | unknown word _ _ hcycle =>
      have hcounted : timer m.cycled = countDown (timer m) := by
        rw [cycled_of_ok hcycle, passed, haged]
        exact congrArg countDown (hidle m _ _ _ _)
      rw [hcounted] at hchanged ⊢
      exact Or.inl (countDown_of_ne hchanged)
  | executed word instruction hword hspelled _ hcycle =>
      by_cases hkind : kind word
      · exact Or.inr ⟨word, executedWord?_of_executed hword hcycle, hkind⟩
      · have hsame := hkept word instruction hspelled hkind
        have hcounted : timer m.cycled = countDown (timer m) := by
          rw [cycled_of_ok hcycle, executed, haged]
          refine congrArg countDown ((hidle _ _ _ _ _).trans (hsame.trans ?_))
          exact hidle m _ _ _ _
        rw [hcounted] at hchanged ⊢
        exact Or.inl (countDown_of_ne hchanged)

/-- The next cycle changes no part of the machine without executing a word that writes
it. A timer may count down as well. -/
structure Confined (m : Machine) : Prop where
  keys : m.cycled.keys = m.keys
  memory : forall (address : Nat) (h : address < 4096),
    m.cycled.memory[address] ≠ m.memory[address] ->
      m.Executes (Opcode.StoresAt m.index.toNat address)
  screen : m.cycled.screen ≠ m.screen -> m.Executes Opcode.WritesScreen
  stack : m.cycled.stack ≠ m.stack -> m.Executes Opcode.WritesStack
  index : m.cycled.index ≠ m.index -> m.Executes Opcode.WritesIndex
  registers : forall z, m.cycled.registers.get z ≠ m.registers.get z ->
    m.Executes (Opcode.WritesRegister z)
  delayTimer : m.cycled.delayTimer ≠ m.delayTimer ->
    m.cycled.delayTimer.toNat + 1 = m.delayTimer.toNat ∨ m.Executes (Opcode.IsDevice 0x15)
  soundTimer : m.cycled.soundTimer ≠ m.soundTimer ->
    m.cycled.soundTimer.toNat + 1 = m.soundTimer.toNat ∨ m.Executes (Opcode.IsDevice 0x18)
  generator : m.cycled.generator ≠ m.generator ->
    m.Executes fun word => Opcode.family word = 0xC

theorem keys_cycled (m : Machine) : m.cycled.keys = m.keys := by
  by_contra hchanged
  -- No word is of the kind that changes the keys.
  have hnever : m.Executes fun _ => False := by
    refine executes_of_changed Machine.keys (fun _ _ _ _ _ _ _ => rfl) ?_ hchanged
    intro word instruction _ _
    exact Instruction.keys_effect
  rcases hnever with ⟨word, _, hfalse⟩
  exact hfalse

theorem confined (m : Machine) : m.Confined where
  keys := m.keys_cycled
  memory address h := by
    refine executes_of_changed (fun m => m.memory[address]) (fun _ _ _ _ _ _ _ => rfl) ?_
    intro word instruction hspelled hkind
    by_contra hchanged
    exact hkind (Instruction.storesAt_of_changed (m := m.fetched word) h hspelled hchanged)
  screen := by
    refine executes_of_changed Machine.screen (fun _ _ _ _ _ _ _ => rfl) ?_
    intro word instruction hspelled hkind
    apply Instruction.screen_effect_of_ne
    · rintro rfl
      exact hkind (Or.inl hspelled)
    · rintro x y rows rfl
      exact hkind (Or.inr hspelled.1)
  stack := by
    refine executes_of_changed Machine.stack (fun _ _ _ _ _ _ _ => rfl) ?_
    intro word instruction hspelled hkind
    apply Instruction.stack_effect_of_ne
    · rintro rfl
      exact hkind (Or.inl hspelled)
    · rintro target rfl
      exact hkind (Or.inr hspelled.1)
  index := by
    refine executes_of_changed Machine.index (fun _ _ _ _ _ _ _ => rfl) ?_
    intro word instruction hspelled hkind
    apply Instruction.index_effect_of_ne
    · rintro address rfl
      exact hkind (Or.inl hspelled.1)
    · rintro x rfl
      exact hkind (Or.inr (Or.inl ⟨hspelled.1, hspelled.2.1⟩))
    · rintro x rfl
      exact hkind (Or.inr (Or.inr ⟨hspelled.1, hspelled.2.1⟩))
  registers z := by
    refine executes_of_changed (fun m => m.registers.get z) (fun _ _ _ _ _ _ _ => rfl) ?_
    intro word instruction hspelled hkind
    by_contra hchanged
    exact hkind (Instruction.writesRegister_of_changed hspelled hchanged)
  delayTimer := by
    refine counts_or_executes_of_changed Machine.delayTimer (fun _ => rfl)
      (fun _ _ _ _ _ => rfl) ?_
    intro word instruction hspelled hkind
    apply Instruction.delayTimer_effect_of_ne
    rintro x rfl
    exact hkind ⟨hspelled.1, hspelled.2.1⟩
  soundTimer := by
    refine counts_or_executes_of_changed Machine.soundTimer (fun _ => rfl)
      (fun _ _ _ _ _ => rfl) ?_
    intro word instruction hspelled hkind
    apply Instruction.soundTimer_effect_of_ne
    rintro x rfl
    exact hkind ⟨hspelled.1, hspelled.2.1⟩
  generator := by
    refine executes_of_changed Machine.generator (fun _ _ _ _ _ _ _ => rfl) ?_
    intro word instruction hspelled hkind
    apply Instruction.generator_effect_of_ne
    rintro x mask rfl
    exact hkind hspelled.1

end Machine

end Chip8
