import Chip8.Proofs.Cycle.Faults
import Chip8.Proofs.Cycle.WriteSets
import Chip8.Proofs.Host.Loading
import Chip8.Proofs.Host.Reachable

/-!
# Control flow

Where a machine goes on behind a fetched word, told by the digits of the word and by what
the registers, the stack and the keys hold. The cycle goes there and nowhere else, unless it
fails, and then it stays. So the cases in which a machine keeps its place can be read off
the words.
-/

namespace Chip8

namespace Opcode

/-- A word behind which the next one follows, whatever the machine holds. It may stand for
an instruction that is no jump, call, return, skip or wait, or for none in family F. -/
inductive IsPlain (word : UInt16) : Prop where
  | system (hfamily : family word = 0x0) (hlow : (low word).val ≠ 0xE)
  | operand (hfamily : family word = 0x6 ∨ family word = 0x7 ∨ family word = 0xA ∨
      family word = 0xC ∨ family word = 0xD)
  | arithmetic (hfamily : family word = 0x8)
      (hlow : (low word).val ≤ 0x7 ∨ (low word).val = 0xE)
  | device (hfamily : family word = 0xF) (hbyte : (byte word).toNat ≠ 0x0A)

end Opcode

namespace Machine

inductive Test (m : Machine) (word : UInt16) : Bool → Prop where
  | isByte (hfamily : Opcode.family word = 0x3) :
      Test m word (m.registers.get (Opcode.x word) == Opcode.byte word)
  | isNotByte (hfamily : Opcode.family word = 0x4) :
      Test m word (m.registers.get (Opcode.x word) != Opcode.byte word)
  | same (hfamily : Opcode.family word = 0x5) :
      Test m word (m.registers.get (Opcode.x word) == m.registers.get (Opcode.y word))
  | differ (hfamily : Opcode.family word = 0x9) :
      Test m word (m.registers.get (Opcode.x word) != m.registers.get (Opcode.y word))
  | keyDown {down : Bool} (hfamily : Opcode.family word = 0xE)
      (hlow : (Opcode.low word).val = 0xE)
      (hkey : m.keys.isDown (m.registers.get (Opcode.x word)).toNat = .ok down) :
      Test m word down
  | keyUp {down : Bool} (hfamily : Opcode.family word = 0xE)
      (hlow : (Opcode.low word).val = 0x1)
      (hkey : m.keys.isDown (m.registers.get (Opcode.x word)).toNat = .ok down) :
      Test m word (!down)

/-- The address that a machine goes on at behind a word that it does not fail at. -/
inductive LeadsTo (m : Machine) (word : UInt16) : Nat → Prop where
  | address (hfamily : Opcode.family word = 0x1 ∨ Opcode.family word = 0x2) :
      LeadsTo m word (Opcode.address word).val
  | offset (hfamily : Opcode.family word = 0xB) :
      LeadsTo m word ((Opcode.address word).val + (m.registers.get offsetRegister).toNat)
  | back {latest : UInt16} {older : List UInt16} (hfamily : Opcode.family word = 0x0)
      (hlow : (Opcode.low word).val = 0xE) (hstack : m.stack.entries = latest :: older) :
      LeadsTo m word latest.toNat
  | skip (htest : m.Test word true) : LeadsTo m word (m.pc.toNat + 4)
  | noSkip (htest : m.Test word false) : LeadsTo m word (m.pc.toNat + 2)
  | wait (hkind : Opcode.IsDevice 0x0A word) (hkeys : forall key, m.keys.get key = false) :
      LeadsTo m word m.pc.toNat
  | resume (hkind : Opcode.IsDevice 0x0A word) {key : Fin 16}
      (hkey : m.keys.get key = true) : LeadsTo m word (m.pc.toNat + 2)
  | refused (hrefused : Opcode.IsRefused word) : LeadsTo m word m.pc.toNat
  | plain (hplain : Opcode.IsPlain word) : LeadsTo m word (m.pc.toNat + 2)

inductive Stays (m : Machine) (word : UInt16) : Prop where
  | wait (hkind : Opcode.IsDevice 0x0A word) (hkeys : forall key, m.keys.get key = false)
  | refused (hrefused : Opcode.IsRefused word)
  | address (hfamily : Opcode.family word = 0x1 ∨ Opcode.family word = 0x2)
      (htarget : (Opcode.address word).val = m.pc.toNat)
  | offset (hfamily : Opcode.family word = 0xB)
      (htarget : (Opcode.address word).val + (m.registers.get offsetRegister).toNat =
        m.pc.toNat)
  | back {older : List UInt16} (hfamily : Opcode.family word = 0x0)
      (hlow : (Opcode.low word).val = 0xE) (hstack : m.stack.entries = m.pc :: older)

/-- The words of two machines skip on opposite conditions, and both machines hold the same
in the registers and keys that these ask for. -/
inductive OppositeTests (m other : Machine) (word otherWord : UInt16) : Prop where
  | bytes (hfamily : Opcode.family word = 0x3) (hother : Opcode.family otherWord = 0x4)
      (hx : Opcode.x otherWord = Opcode.x word)
      (hbyte : Opcode.byte otherWord = Opcode.byte word)
      (hvalue : other.registers.get (Opcode.x word) = m.registers.get (Opcode.x word))
  | registers (hfamily : Opcode.family word = 0x5) (hother : Opcode.family otherWord = 0x9)
      (hx : Opcode.x otherWord = Opcode.x word) (hy : Opcode.y otherWord = Opcode.y word)
      (hfirst : other.registers.get (Opcode.x word) = m.registers.get (Opcode.x word))
      (hsecond : other.registers.get (Opcode.y word) = m.registers.get (Opcode.y word))
  | keys (hfamily : Opcode.family word = 0xE) (hlow : (Opcode.low word).val = 0xE)
      (hother : Opcode.family otherWord = 0xE) (hotherLow : (Opcode.low otherWord).val = 0x1)
      (hx : Opcode.x otherWord = Opcode.x word)
      (hvalue : other.registers.get (Opcode.x word) = m.registers.get (Opcode.x word))
      (hkeys : other.keys = m.keys)

variable {m other after : Machine} {word otherWord : UInt16} {outcome : Outcome}
variable {instruction : Instruction} {target : Nat} {holds : Bool}

/-!
## Tests

The outcome of a test is that of the condition which the word stands for.
-/

theorem test_of_holds {condition : Condition} (hspelled : condition.SpelledBy word)
    (h : condition.holds m = .ok holds) : m.Test word holds := by
  cases condition with
  | isByte x byte =>
      rcases hspelled with ⟨hfamily, rfl, rfl⟩
      cases h
      exact .isByte hfamily
  | isNotByte x byte =>
      rcases hspelled with ⟨hfamily, rfl, rfl⟩
      cases h
      exact .isNotByte hfamily
  | same x y =>
      rcases hspelled with ⟨hfamily, rfl, rfl⟩
      cases h
      exact .same hfamily
  | differ x y =>
      rcases hspelled with ⟨hfamily, rfl, rfl⟩
      cases h
      exact .differ hfamily
  | keyDown x =>
      rcases hspelled with ⟨hfamily, hlow, rfl⟩
      exact .keyDown hfamily hlow h
  | keyUp x =>
      rcases hspelled with ⟨hfamily, hlow, rfl⟩
      have hflipped : (m.keys.isDown (m.registers.get (Opcode.x word)).toNat).map not =
          .ok holds := h
      cases hdown : m.keys.isDown (m.registers.get (Opcode.x word)).toNat with
      | error cause =>
          rw [hdown] at hflipped
          cases hflipped
      | ok down =>
          rw [hdown] at hflipped
          cases hflipped
          exact .keyUp hfamily hlow hdown

theorem Test.exists_condition (h : m.Test word holds) :
    exists condition : Condition,
      condition.SpelledBy word ∧ condition.holds m = .ok holds := by
  cases h with
  | isByte hfamily => exact ⟨.isByte _ _, ⟨hfamily, rfl, rfl⟩, rfl⟩
  | isNotByte hfamily => exact ⟨.isNotByte _ _, ⟨hfamily, rfl, rfl⟩, rfl⟩
  | same hfamily => exact ⟨.same _ _, ⟨hfamily, rfl, rfl⟩, rfl⟩
  | differ hfamily => exact ⟨.differ _ _, ⟨hfamily, rfl, rfl⟩, rfl⟩
  | keyDown hfamily hlow hkey => exact ⟨.keyDown _, ⟨hfamily, hlow, rfl⟩, hkey⟩
  | keyUp hfamily hlow hkey =>
      refine ⟨.keyUp _, ⟨hfamily, hlow, rfl⟩, ?_⟩
      show (m.keys.isDown _).map not = _
      rw [hkey]
      rfl

/-!
## Where a cycle goes on

A cycle that ends goes where its instruction says, and a word that stands for nothing is
passed over or fetched again.
-/

theorem pc_of_spelled (hword : m.memory.word? m.pc = some word)
    (hspelled : instruction.SpelledBy word) (hcycle : m.cycle = .ok outcome after) :
    after.pc = instruction.target m := by
  rw [cycle_of_known hword (Instruction.ofWord?_of_spelledBy hspelled)] at hcycle
  cases hfailure : instruction.failure? m with
  | none =>
      rw [hfailure] at hcycle
      cases hcycle
      rfl
  | some failure =>
      rw [hfailure] at hcycle
      cases hcycle

theorem pc_of_unknown (hword : m.memory.word? m.pc = some word)
    (hunknown : Instruction.ofWord? word = none) (hcycle : m.cycle = .ok outcome after) :
    after.pc = if passesOver word then m.pc + 2 else m.pc := by
  rw [cycle_of_unknown hword hunknown] at hcycle
  cases hcycle
  rfl

theorem target_of_plain (hplain : Opcode.IsPlain word) (hspelled : instruction.SpelledBy word) :
    instruction.target m = m.pc + 2 := by
  cases instruction with
  | ret =>
      have hlow := hspelled.2
      have hfamily := hspelled.1
      cases hplain <;> lia
  | jump target | call target | jumpOffset base =>
      have hfamily := hspelled.1
      cases hplain <;> lia
  | skipIf condition =>
      cases condition <;> have hfamily := hspelled.1 <;> cases hplain <;> lia
  | awaitKey x =>
      have hfamily := hspelled.1
      have hbyte := hspelled.2.1
      cases hplain <;> lia
  | _ => rfl

theorem passesOver_of_refused (hrefused : Opcode.IsRefused word) : passesOver word = false := by
  unfold passesOver
  cases hrefused with
  | arithmetic hfamily _ _ | key hfamily _ _ =>
      rw [hfamily]
      rfl

theorem passesOver_of_plain (hplain : Opcode.IsPlain word)
    (hunknown : Instruction.ofWord? word = none) : passesOver word = true := by
  have hfamily : Opcode.family word = 0xF := by
    rcases Instruction.ofWord?_eq_none_iff.mp hunknown with hrefused | hdevice
    · cases hrefused <;> cases hplain <;> lia
    · exact hdevice.1
  unfold passesOver
  rw [hfamily]
  rfl

theorem pc_of_test (hword : m.memory.word? m.pc = some word) (htest : m.Test word holds)
    (hcycle : m.cycle = .ok outcome after) :
    after.pc = if holds then m.pc + 4 else m.pc + 2 := by
  rcases htest.exists_condition with ⟨condition, hspelled, hholds⟩
  have hskip : (Instruction.skipIf condition).SpelledBy word := hspelled
  rw [pc_of_spelled hword hskip hcycle, Instruction.target]
  simp only [hholds]
  cases holds <;> rfl

theorem pc_of_leadsTo (hword : m.memory.word? m.pc = some word)
    (hcycle : m.cycle = .ok outcome after) (h : m.LeadsTo word target) :
    after.pc.toNat = target := by
  have hpc := Memory.address_le_of_word? hword
  cases h with
  | address hfamily =>
      rcases hfamily with hjump | hcall
      · have hspelled : (Instruction.jump (Opcode.address word)).SpelledBy word := ⟨hjump, rfl⟩
        rw [pc_of_spelled hword hspelled hcycle]
        exact Address.toNat_toWord _
      · have hspelled : (Instruction.call (Opcode.address word)).SpelledBy word := ⟨hcall, rfl⟩
        rw [pc_of_spelled hword hspelled hcycle]
        exact Address.toNat_toWord _
  | offset hfamily =>
      have hspelled : (Instruction.jumpOffset (Opcode.address word)).SpelledBy word :=
        ⟨hfamily, rfl⟩
      have hsum := Nat.lt_of_le_of_lt (jumpOffset_le (m := m) (Opcode.address word))
        (by decide : 4350 < 65536)
      rw [pc_of_spelled hword hspelled hcycle, Instruction.target, Word.toNat_add_of_lt hsum,
        Address.toNat_toWord, UInt8.toNat_toUInt16]
  | back hfamily hlow hstack =>
      have hspelled : Instruction.ret.SpelledBy word := ⟨hfamily, hlow⟩
      rw [pc_of_spelled hword hspelled hcycle, Instruction.target, hstack]
      rfl
  | skip htest =>
      rw [pc_of_test hword htest hcycle]
      exact toNat_skip hpc
  | noSkip htest =>
      rw [pc_of_test hword htest hcycle]
      exact toNat_next hpc
  | wait hkind hkeys =>
      have hspelled : (Instruction.awaitKey (Opcode.x word)).SpelledBy word :=
        ⟨hkind.1, hkind.2, rfl⟩
      rw [pc_of_spelled hword hspelled hcycle, Instruction.target,
        Keypad.lowestDown?_eq_none_iff.mpr hkeys]
  | resume hkind hkey =>
      have hspelled : (Instruction.awaitKey (Opcode.x word)).SpelledBy word :=
        ⟨hkind.1, hkind.2, rfl⟩
      rw [pc_of_spelled hword hspelled hcycle, Instruction.target]
      cases hlowest : m.keys.lowestDown? with
      | some lowest => exact toNat_next hpc
      | none =>
          rw [Keypad.lowestDown?_eq_none_iff.mp hlowest] at hkey
          cases hkey
  | refused hrefused =>
      have hunknown := Instruction.ofWord?_eq_none_iff.mpr (Or.inl hrefused)
      rw [pc_of_unknown hword hunknown hcycle, passesOver_of_refused hrefused]
      rfl
  | plain hplain =>
      cases hknown : Instruction.ofWord? word with
      | none =>
          rw [pc_of_unknown hword hknown hcycle, passesOver_of_plain hplain hknown, if_pos rfl]
          exact toNat_next hpc
      | some instruction =>
          have hspelled := Instruction.spelledBy_of_ofWord? hknown
          rw [pc_of_spelled hword hspelled hcycle, target_of_plain hplain hspelled]
          exact toNat_next hpc

/-!
## Every word leads somewhere
-/

theorem exists_leadsTo_of_spelled (hspelled : instruction.SpelledBy word)
    (hfailure : instruction.failure? m = none) : exists target, m.LeadsTo word target := by
  cases instruction with
  | ret =>
      cases hstack : m.stack.entries with
      | cons latest older => exact ⟨_, .back hspelled.1 hspelled.2 hstack⟩
      | nil =>
          have hempty : m.stack.depth = 0 := by
            rw [CallStack.depth, hstack]
            rfl
          rw [Instruction.failure?, if_pos hempty] at hfailure
          cases hfailure
  | jump address => exact ⟨_, .address (Or.inl hspelled.1)⟩
  | call address => exact ⟨_, .address (Or.inr hspelled.1)⟩
  | jumpOffset base => exact ⟨_, .offset hspelled.1⟩
  | skipIf condition =>
      cases hholds : condition.holds m with
      | error cause =>
          rw [Instruction.failure?_skipIf_of_error hholds] at hfailure
          cases hfailure
      | ok holds =>
          have htest := test_of_holds hspelled hholds
          cases holds with
          | true => exact ⟨_, .skip htest⟩
          | false => exact ⟨_, .noSkip htest⟩
  | awaitKey x =>
      have hkind : Opcode.IsDevice 0x0A word := ⟨hspelled.1, hspelled.2.1⟩
      by_cases hkeys : forall key, m.keys.get key = false
      · exact ⟨_, .wait hkind hkeys⟩
      · rcases not_forall.mp hkeys with ⟨key, hkey⟩
        exact ⟨_, .resume hkind (Bool.eq_true_of_not_eq_false hkey)⟩
  | clearScreen =>
      have hlow := hspelled.2
      exact ⟨_, .plain (.system hspelled.1 (by lia))⟩
  | routine address => exact ⟨_, .plain (.system hspelled.1 hspelled.2.2.1)⟩
  | setByte x byte | addByte x byte | setIndex address | random x mask | draw x y rows =>
      have hfamily := hspelled.1
      exact ⟨_, .plain (.operand (by lia))⟩
  | binary op x y =>
      have hlow := hspelled.2.1
      refine ⟨_, .plain (.arithmetic hspelled.1 (Or.inl ?_))⟩
      rw [hlow]
      cases op <;> decide
  | unary op x =>
      have hlow := hspelled.2.1
      refine ⟨_, .plain (.arithmetic hspelled.1 ?_)⟩
      rw [hlow]
      cases op <;> decide
  | readDelay x | setDelay x | setSound x | addIndex x | pointToGlyph x | storeDecimal x
  | storeRegisters x | loadRegisters x =>
      have hbyte := hspelled.2.1
      exact ⟨_, .plain (.device hspelled.1 (by lia))⟩

theorem exists_leadsTo (hword : m.memory.word? m.pc = some word)
    (hcycle : m.cycle = .ok outcome after) : exists target, m.LeadsTo word target := by
  cases hknown : Instruction.ofWord? word with
  | none =>
      rcases Instruction.ofWord?_eq_none_iff.mp hknown with hrefused | ⟨hfamily, hbyte⟩
      · exact ⟨_, .refused hrefused⟩
      · have hwaits : (Opcode.byte word).toNat ≠ 0x0A := by
          intro hwaits
          rw [hwaits] at hbyte
          exact hbyte (by decide)
        exact ⟨_, .plain (.device hfamily hwaits)⟩
  | some instruction =>
      rw [cycle_of_known hword hknown] at hcycle
      cases hfailure : instruction.failure? m with
      | none => exact exists_leadsTo_of_spelled (Instruction.spelledBy_of_ofWord? hknown) hfailure
      | some failure =>
          rw [hfailure] at hcycle
          cases hcycle

theorem pc_eq_iff_leadsTo (hword : m.memory.word? m.pc = some word)
    (hcycle : m.cycle = .ok outcome after) :
    after.pc.toNat = target ↔ m.LeadsTo word target := by
  constructor
  · intro htarget
    rcases exists_leadsTo hword hcycle with ⟨other, h⟩
    rw [pc_of_leadsTo hword hcycle h] at htarget
    rw [← htarget]
    exact h
  · exact pc_of_leadsTo hword hcycle

/-!
## Keeping the place
-/

theorem stays_of_leadsTo (h : m.LeadsTo word target) (hsame : target = m.pc.toNat) :
    m.Stays word := by
  cases h with
  | address hfamily => exact .address hfamily hsame
  | offset hfamily => exact .offset hfamily hsame
  | back hfamily hlow hstack =>
      rw [UInt16.toNat_inj] at hsame
      subst hsame
      exact .back hfamily hlow hstack
  | wait hkind hkeys => exact .wait hkind hkeys
  | refused hrefused => exact .refused hrefused
  | skip _ | noSkip _ | resume _ _ | plain _ => lia

theorem leadsTo_of_stays (h : m.Stays word) : m.LeadsTo word m.pc.toNat := by
  cases h with
  | address hfamily htarget =>
      rw [← htarget]
      exact .address hfamily
  | offset hfamily htarget =>
      rw [← htarget]
      exact .offset hfamily
  | back hfamily hlow hstack => exact .back hfamily hlow hstack
  | wait hkind hkeys => exact .wait hkind hkeys
  | refused hrefused => exact .refused hrefused

theorem pc_unchanged_iff_stays (hword : m.memory.word? m.pc = some word)
    (hcycle : m.cycle = .ok outcome after) : after.pc = m.pc ↔ m.Stays word := by
  rw [← UInt16.toNat_inj, pc_eq_iff_leadsTo hword hcycle]
  constructor
  · intro h
    exact stays_of_leadsTo h rfl
  · exact leadsTo_of_stays

theorem pc_of_error {failure : Failure} (hcycle : m.cycle = .error failure after) :
    after.pc = m.pc := by
  cases cycle_cases m with
  | outside _ hother | unknown _ _ _ hother | executed _ _ _ _ _ hother =>
      rw [hcycle] at hother
      cases hother
  | failed _ _ _ _ _ _ hother =>
      rw [hcycle] at hother
      cases hother
      rfl

theorem pc_cycled_of_outside (hpc : 4094 < m.pc.toNat) : m.cycled.pc = m.pc := by
  rw [cycled_of_ok (cycle_of_outside (Memory.word?_eq_none_iff.mpr hpc))]
  rfl

/-!
## Opposite tests
-/

theorem exists_isDown_of_cycle (hword : m.memory.word? m.pc = some word)
    (hfamily : Opcode.family word = 0xE)
    (hlow : (Opcode.low word).val = 0xE ∨ (Opcode.low word).val = 0x1)
    (hcycle : m.cycle = .ok outcome after) :
    exists down, m.keys.isDown (m.registers.get (Opcode.x word)).toNat = .ok down := by
  cases hdown : m.keys.isDown (m.registers.get (Opcode.x word)).toNat with
  | ok down => exact ⟨down, rfl⟩
  | error cause =>
      have hkey := (Keypad.isDown_eq_error_iff.mp hdown).1
      rw [cycle_of_fault hword (.keyNumber hfamily hlow hkey)] at hcycle
      cases hcycle

theorem OppositeTests.exists_tests (h : m.OppositeTests other word otherWord)
    (hword : m.memory.word? m.pc = some word) (hcycle : m.cycle = .ok outcome after) :
    exists holds, m.Test word holds ∧ other.Test otherWord (!holds) := by
  cases h with
  | bytes hfamily hother hx hbyte hvalue =>
      refine ⟨_, .isByte hfamily, ?_⟩
      rw [← hvalue, ← hx, ← hbyte]
      exact .isNotByte hother
  | registers hfamily hother hx hy hfirst hsecond =>
      refine ⟨_, .same hfamily, ?_⟩
      rw [← hfirst, ← hsecond, ← hx, ← hy]
      exact .differ hother
  | keys hfamily hlow hother hotherLow hx hvalue hkeys =>
      rcases exists_isDown_of_cycle hword hfamily (Or.inl hlow) hcycle with ⟨down, hdown⟩
      refine ⟨down, .keyDown hfamily hlow hdown, .keyUp hother hotherLow ?_⟩
      rw [hkeys, hx, hvalue]
      exact hdown

/-- A cycle that ends goes on exactly where the fetched word leads, and it keeps the place
exactly at the words that hold it there. A cycle that fails and one outside memory keep it
as well. Of two words with opposite tests, one skips and the other does not. -/
theorem counter_follows_words (m : Machine) :
    (forall word outcome after, m.memory.word? m.pc = some word ->
      m.cycle = .ok outcome after ->
        (forall target, after.pc.toNat = target ↔ m.LeadsTo word target) ∧
        (after.pc = m.pc ↔ m.Stays word)) ∧
    (forall failure after, m.cycle = .error failure after -> after.pc = m.pc) ∧
    (4094 < m.pc.toNat -> m.cycled.pc = m.pc) ∧
    (forall (other : Machine) word otherWord outcome otherOutcome after otherAfter,
      m.memory.word? m.pc = some word -> other.memory.word? other.pc = some otherWord ->
      m.OppositeTests other word otherWord ->
      m.cycle = .ok outcome after -> other.cycle = .ok otherOutcome otherAfter ->
        (after.pc.toNat = m.pc.toNat + 4 ∧ otherAfter.pc.toNat = other.pc.toNat + 2) ∨
        (after.pc.toNat = m.pc.toNat + 2 ∧ otherAfter.pc.toNat = other.pc.toNat + 4)) := by
  refine ⟨?_, fun _ _ => pc_of_error, pc_cycled_of_outside, ?_⟩
  · intro word outcome after hword hcycle
    exact ⟨fun _ => pc_eq_iff_leadsTo hword hcycle, pc_unchanged_iff_stays hword hcycle⟩
  · intro other word otherWord outcome otherOutcome after otherAfter hword hother hopposite
      hcycle hotherCycle
    rcases hopposite.exists_tests hword hcycle with ⟨holds, htest, hotherTest⟩
    cases holds with
    | true =>
        exact Or.inl ⟨pc_of_leadsTo hword hcycle (.skip htest),
          pc_of_leadsTo hother hotherCycle (.noSkip hotherTest)⟩
    | false =>
        exact Or.inr ⟨pc_of_leadsTo hword hcycle (.noSkip htest),
          pc_of_leadsTo hother hotherCycle (.skip hotherTest)⟩

def farJumping : Machine :=
  { loaded [0xBF, 0xFF] with
    registers := #v[255, 0, 0, 0, 0, 0, 0, 0, 0, 0, 0, 0, 0, 0, 0, 0] }

theorem farJumping_stays_outside :
    farJumping.memory.word? farJumping.pc = some 0xBFFF ∧
      exists after, farJumping.cycle = .ok .executed after ∧ after.pc.toNat = 4350 ∧
        after.cycled.pc = after.pc := by
  have hfit : [(0xBF : UInt8), 0xFF].length ≤ 3584 := by decide
  have hplace : farJumping.pc.toNat = 512 + 0 := rfl
  have hhigh : [(0xBF : UInt8), 0xFF][0]? = some 0xBF := rfl
  have hlow : [(0xBF : UInt8), 0xFF][0 + 1]? = some 0xFF := rfl
  have hword : farJumping.memory.word? farJumping.pc = some 0xBFFF :=
    word?_loaded hfit hplace hhigh hlow
  have hspelled : (Instruction.jumpOffset (Opcode.address 0xBFFF)).SpelledBy 0xBFFF :=
    ⟨by decide, rfl⟩
  have hcycle := cycle_of_known hword (Instruction.ofWord?_of_spelledBy hspelled)
  have hleads : farJumping.LeadsTo 0xBFFF 4350 := .offset hspelled.1
  have hpc := (((counter_follows_words farJumping).1 _ _ _ hword hcycle).1 4350).mpr hleads
  have houtside : 4094 < (farJumping.executed 0xBFFF
      (.jumpOffset (Opcode.address 0xBFFF))).pc.toNat := by
    rw [hpc]
    decide
  exact ⟨hword, _, hcycle, hpc, (counter_follows_words _).2.2.1 houtside⟩

end Machine

end Chip8
