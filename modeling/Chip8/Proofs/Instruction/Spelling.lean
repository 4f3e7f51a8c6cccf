import Chip8.Instruction.Decoding
import Chip8.Instruction.Encoding

/-!
# The spelling of instructions

The digits a word must have to stand for a given instruction. Decoding reads them one
after the other; here they are listed for each instruction, so that a proof about a
decoded word can ask for the digits, and a proof about digits for the instruction. The words
that stand for no instruction are told by their digits as well.
-/

namespace Chip8

def Condition.SpelledBy (word : UInt16) : Condition → Prop
  | .isByte x byte =>
      Opcode.family word = 0x3 ∧ x = Opcode.x word ∧ byte = Opcode.byte word
  | .isNotByte x byte =>
      Opcode.family word = 0x4 ∧ x = Opcode.x word ∧ byte = Opcode.byte word
  | .same x y => Opcode.family word = 0x5 ∧ x = Opcode.x word ∧ y = Opcode.y word
  | .differ x y => Opcode.family word = 0x9 ∧ x = Opcode.x word ∧ y = Opcode.y word
  | .keyDown x =>
      Opcode.family word = 0xE ∧ (Opcode.low word).val = 0xE ∧ x = Opcode.x word
  | .keyUp x =>
      Opcode.family word = 0xE ∧ (Opcode.low word).val = 0x1 ∧ x = Opcode.x word

namespace Instruction

def DeviceSpelling (word : UInt16) (byte : Nat) (x : Register) : Prop :=
  Opcode.family word = 0xF ∧ (Opcode.byte word).toNat = byte ∧ x = Opcode.x word

def SpelledBy (word : UInt16) : Instruction → Prop
  | .clearScreen => Opcode.family word = 0x0 ∧ (Opcode.low word).val = 0x0
  | .ret => Opcode.family word = 0x0 ∧ (Opcode.low word).val = 0xE
  | .routine address =>
      Opcode.family word = 0x0 ∧ (Opcode.low word).val ≠ 0x0 ∧
        (Opcode.low word).val ≠ 0xE ∧ address = Opcode.address word
  | .jump target => Opcode.family word = 0x1 ∧ target = Opcode.address word
  | .call target => Opcode.family word = 0x2 ∧ target = Opcode.address word
  | .jumpOffset base => Opcode.family word = 0xB ∧ base = Opcode.address word
  | .skipIf condition => condition.SpelledBy word
  | .setByte x byte =>
      Opcode.family word = 0x6 ∧ x = Opcode.x word ∧ byte = Opcode.byte word
  | .addByte x byte =>
      Opcode.family word = 0x7 ∧ x = Opcode.x word ∧ byte = Opcode.byte word
  | .binary op x y =>
      Opcode.family word = 0x8 ∧ (Opcode.low word).val = op.digit ∧
        x = Opcode.x word ∧ y = Opcode.y word
  | .unary op x =>
      Opcode.family word = 0x8 ∧ (Opcode.low word).val = op.digit ∧ x = Opcode.x word
  | .setIndex address => Opcode.family word = 0xA ∧ address = Opcode.address word
  | .random x mask =>
      Opcode.family word = 0xC ∧ x = Opcode.x word ∧ mask = Opcode.byte word
  | .draw x y rows =>
      Opcode.family word = 0xD ∧ x = Opcode.x word ∧ y = Opcode.y word ∧
        rows = Opcode.low word
  | .readDelay x => DeviceSpelling word 0x07 x
  | .awaitKey x => DeviceSpelling word 0x0A x
  | .setDelay x => DeviceSpelling word 0x15 x
  | .setSound x => DeviceSpelling word 0x18 x
  | .addIndex x => DeviceSpelling word 0x1E x
  | .pointToGlyph x => DeviceSpelling word 0x29 x
  | .storeDecimal x => DeviceSpelling word 0x33 x
  | .storeRegisters x => DeviceSpelling word 0x55 x
  | .loadRegisters x => DeviceSpelling word 0x65 x

variable {word : UInt16} {instruction : Instruction}

/-!
## From the instruction to the digits

One lemma for each family that is split further, then the families together.
-/

theorem spelledBy_ofSystemWord (hfamily : Opcode.family word = 0x0) :
    (ofSystemWord word).SpelledBy word := by
  unfold ofSystemWord
  split
  · rename_i hlow
    exact ⟨hfamily, hlow⟩
  · rename_i hlow
    exact ⟨hfamily, hlow⟩
  · rename_i hzero hreturn
    exact ⟨hfamily, hzero, hreturn, rfl⟩

theorem spelledBy_of_ofArithmeticWord? (hfamily : Opcode.family word = 0x8)
    (h : ofArithmeticWord? word = some instruction) : instruction.SpelledBy word := by
  unfold ofArithmeticWord? at h
  split at h
  case h_10 => cases h
  all_goals
    rename_i hlow
    cases h
    first
      | exact ⟨hfamily, hlow, rfl, rfl⟩
      | exact ⟨hfamily, hlow, rfl⟩

theorem spelledBy_of_ofKeyWord? (hfamily : Opcode.family word = 0xE)
    (h : ofKeyWord? word = some instruction) : instruction.SpelledBy word := by
  unfold ofKeyWord? at h
  split at h
  case h_3 => cases h
  all_goals
    rename_i hlow
    cases h
    exact ⟨hfamily, hlow, rfl⟩

theorem spelledBy_of_ofDeviceWord? (hfamily : Opcode.family word = 0xF)
    (h : ofDeviceWord? word = some instruction) : instruction.SpelledBy word := by
  unfold ofDeviceWord? at h
  split at h
  case h_10 => cases h
  all_goals
    rename_i hbyte
    cases h
    exact ⟨hfamily, hbyte, rfl⟩

theorem spelledBy_of_ofWord? (h : ofWord? word = some instruction) :
    instruction.SpelledBy word := by
  unfold ofWord? at h
  -- The cases are the families in order, and a last one that no family is left for.
  split at h <;> rename_i hfamily
  case h_1 =>
    cases h
    exact spelledBy_ofSystemWord hfamily
  case h_9 => exact spelledBy_of_ofArithmeticWord? hfamily h
  case h_15 => exact spelledBy_of_ofKeyWord? hfamily h
  case h_16 => exact spelledBy_of_ofDeviceWord? hfamily h
  case h_17 => cases h
  case h_14 =>
    cases h
    exact ⟨hfamily, rfl, rfl, rfl⟩
  case h_2 | h_3 | h_11 | h_12 =>
    cases h
    exact ⟨hfamily, rfl⟩
  all_goals
    cases h
    exact ⟨hfamily, rfl, rfl⟩

/-!
## From the digits to the instruction
-/

theorem ofWord?_eq_ofDeviceWord? (hfamily : Opcode.family word = 0xF) :
    ofWord? word = ofDeviceWord? word := by
  simp only [ofWord?, hfamily]

theorem ofWord?_of_condition {condition : Condition} (h : condition.SpelledBy word) :
    ofWord? word = some (.skipIf condition) := by
  cases condition with
  | isByte x byte | isNotByte x byte | same x y | differ x y =>
      rcases h with ⟨hfamily, rfl, rfl⟩
      simp only [ofWord?, hfamily]
  | keyDown x | keyUp x =>
      rcases h with ⟨hfamily, hlow, rfl⟩
      simp only [ofWord?, hfamily, ofKeyWord?, hlow]

theorem ofWord?_of_spelledBy (h : instruction.SpelledBy word) :
    ofWord? word = some instruction := by
  cases instruction with
  | clearScreen | ret =>
      rcases h with ⟨hfamily, hlow⟩
      simp only [ofWord?, hfamily, ofSystemWord, hlow]
  | routine address =>
      rcases h with ⟨hfamily, hzero, hreturn, rfl⟩
      simp only [ofWord?, hfamily, ofSystemWord]
  | jump target | call target | jumpOffset base | setIndex address =>
      rcases h with ⟨hfamily, rfl⟩
      simp only [ofWord?, hfamily]
  | skipIf condition => exact ofWord?_of_condition h
  | setByte x byte | addByte x byte | random x mask =>
      rcases h with ⟨hfamily, rfl, rfl⟩
      simp only [ofWord?, hfamily]
  | binary op x y =>
      rcases h with ⟨hfamily, hlow, rfl, rfl⟩
      cases op <;> simp only [ofWord?, hfamily, ofArithmeticWord?, hlow, BinaryOp.digit]
  | unary op x =>
      rcases h with ⟨hfamily, hlow, rfl⟩
      cases op <;> simp only [ofWord?, hfamily, ofArithmeticWord?, hlow, UnaryOp.digit]
  | draw x y rows =>
      rcases h with ⟨hfamily, rfl, rfl, rfl⟩
      simp only [ofWord?, hfamily]
  | readDelay x | awaitKey x | setDelay x | setSound x | addIndex x | pointToGlyph x
  | storeDecimal x | storeRegisters x | loadRegisters x =>
      rcases h with ⟨hfamily, hbyte, rfl⟩
      rw [ofWord?_eq_ofDeviceWord? hfamily]
      simp only [ofDeviceWord?, hbyte]

theorem ofWord?_eq_some_iff :
    ofWord? word = some instruction ↔ instruction.SpelledBy word :=
  ⟨spelledBy_of_ofWord?, ofWord?_of_spelledBy⟩

end Instruction

namespace Opcode

/-!
## Words that stand for nothing
-/

inductive IsRefused (word : UInt16) : Prop where
  | arithmetic (hfamily : family word = 0x8) (hlow : 0x8 ≤ (low word).val)
      (hdouble : (low word).val ≠ 0xE)
  | key (hfamily : family word = 0xE) (hup : (low word).val ≠ 0x1)
      (hdown : (low word).val ≠ 0xE)

def deviceBytes : List Nat :=
  [0x07, 0x0A, 0x15, 0x18, 0x1E, 0x29, 0x33, 0x55, 0x65]

theorem family_lt (word : UInt16) : family word < 16 :=
  Nat.div_lt_of_lt_mul word.toNat_lt

end Opcode

namespace Instruction

variable {word : UInt16}

theorem ofArithmeticWord?_eq_none_iff :
    ofArithmeticWord? word = none ↔ 0x8 ≤ (Opcode.low word).val ∧ (Opcode.low word).val ≠ 0xE := by
  unfold ofArithmeticWord?
  split
  case h_10 =>
    rename_i h0 h1 h2 h3 h4 h5 h6 h7 hE
    simp only [true_iff]
    lia
  all_goals
    rename_i hlow
    rw [hlow]
    simp only [reduceCtorEq, false_iff]
    decide

theorem ofKeyWord?_eq_none_iff :
    ofKeyWord? word = none ↔ (Opcode.low word).val ≠ 0x1 ∧ (Opcode.low word).val ≠ 0xE := by
  unfold ofKeyWord?
  split
  case h_3 =>
    rename_i hdown hup
    exact ⟨fun _ => ⟨hup, hdown⟩, fun _ => rfl⟩
  all_goals
    rename_i hlow
    rw [hlow]
    simp only [reduceCtorEq, false_iff]
    decide

theorem ofDeviceWord?_eq_none_iff :
    ofDeviceWord? word = none ↔ (Opcode.byte word).toNat ∉ Opcode.deviceBytes := by
  unfold ofDeviceWord?
  split
  case h_10 =>
    simp only [true_iff, Opcode.deviceBytes, List.mem_cons, List.not_mem_nil, or_false, not_or]
    rename_i h0 h1 h2 h3 h4 h5 h6 h7 h8
    exact ⟨h0, h1, h2, h3, h4, h5, h6, h7, h8⟩
  all_goals
    rename_i hbyte
    rw [hbyte]
    simp only [reduceCtorEq, false_iff]
    decide

theorem ofWord?_eq_none_iff :
    ofWord? word = none ↔ Opcode.IsRefused word ∨
      (Opcode.family word = 0xF ∧ (Opcode.byte word).toNat ∉ Opcode.deviceBytes) := by
  constructor
  · intro h
    unfold ofWord? at h
    split at h <;> rename_i hfamily
    case h_9 =>
      rcases ofArithmeticWord?_eq_none_iff.mp h with ⟨hlow, hdouble⟩
      exact Or.inl (.arithmetic hfamily hlow hdouble)
    case h_15 =>
      rcases ofKeyWord?_eq_none_iff.mp h with ⟨hup, hdown⟩
      exact Or.inl (.key hfamily hup hdown)
    case h_16 => exact Or.inr ⟨hfamily, ofDeviceWord?_eq_none_iff.mp h⟩
    case h_17 =>
      have hlt := Opcode.family_lt word
      lia
    all_goals cases h
  · intro h
    rcases h with hrefused | ⟨hfamily, hbyte⟩
    · cases hrefused with
      | arithmetic hfamily hlow hdouble =>
          simp only [ofWord?, hfamily]
          exact ofArithmeticWord?_eq_none_iff.mpr ⟨hlow, hdouble⟩
      | key hfamily hup hdown =>
          simp only [ofWord?, hfamily]
          exact ofKeyWord?_eq_none_iff.mpr ⟨hup, hdown⟩
    · rw [ofWord?_eq_ofDeviceWord? hfamily]
      exact ofDeviceWord?_eq_none_iff.mpr hbyte

end Instruction

end Chip8
