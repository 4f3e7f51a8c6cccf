import Chip8.Proofs.Instruction.Spelling
import Mathlib.Data.Nat.Bitwise

/-!
# Ignored bits

Each instruction has a documented word, its encoding. Other words stand for the same
instruction, and all they can do is to differ from the encoding in the bits that the
instruction ignores: two digits of a word that clears the screen or returns, and one digit of
a comparison of registers, of an operation on one register, and of a test of a key. The
fields of a word are stretches of its bits, so that words with the same digits are words with
the same bits.
-/

namespace Chip8

namespace Opcode

variable {word other : UInt16} {ignored : Nat → Prop} {start middle stop : Nat}

def SameBits (start stop : Nat) (word other : UInt16) : Prop :=
  forall bit, start ≤ bit -> bit < stop ->
    word.toNat.testBit bit = other.toNat.testBit bit

def AgreeExcept (ignored : Nat → Prop) (word other : UInt16) : Prop :=
  forall bit, ¬ ignored bit -> word.toNat.testBit bit = other.toNat.testBit bit

/-!
## Fields as stretches of bits
-/

theorem sameBits_iff (start width : Nat) :
    SameBits start (start + width) word other ↔
      word.toNat / 2 ^ start % 2 ^ width = other.toNat / 2 ^ start % 2 ^ width := by
  have hfield : forall (n bit : Nat),
      (n / 2 ^ start % 2 ^ width).testBit bit =
        (decide (bit < width) && n.testBit (start + bit)) := by
    intro n bit
    rw [Nat.testBit_mod_two_pow, Nat.testBit_div_two_pow, Nat.add_comm]
  constructor
  · intro h
    apply Nat.eq_of_testBit_eq
    intro bit
    rw [hfield, hfield]
    by_cases hbit : bit < width
    · rw [h (start + bit) (Nat.le_add_right start bit) (Nat.add_lt_add_left hbit start)]
    · rw [decide_eq_false hbit, Bool.false_and, Bool.false_and]
  · intro h bit hstart hstop
    have hbit : bit - start < width := by lia
    have hsame := congrArg (fun n => n.testBit (bit - start)) h
    rw [hfield, hfield, decide_eq_true hbit, Bool.true_and, Bool.true_and,
      Nat.add_sub_cancel' hstart] at hsame
    exact hsame

theorem sameBits_append_iff (hstart : start ≤ middle) (hstop : middle ≤ stop) :
    SameBits start stop word other ↔
      SameBits start middle word other ∧ SameBits middle stop word other := by
  constructor
  · intro h
    exact ⟨fun bit hfrom hto => h bit hfrom (Nat.lt_of_lt_of_le hto hstop),
      fun bit hfrom hto => h bit (Nat.le_trans hstart hfrom) hto⟩
  · intro h bit hfrom hto
    rcases Nat.lt_or_ge bit middle with hlow | hhigh
    · exact h.1 bit hfrom hlow
    · exact h.2 bit hhigh hto

theorem sameBits_family_iff : SameBits 12 16 word other ↔ family word = family other := by
  have hword := family_lt word
  have hother := family_lt other
  rw [sameBits_iff 12 4]
  unfold family at *
  omega

theorem sameBits_x_iff : SameBits 8 12 word other ↔ x word = x other := by
  rw [sameBits_iff 8 4, Fin.ext_iff]
  rfl

theorem sameBits_y_iff : SameBits 4 8 word other ↔ y word = y other := by
  rw [sameBits_iff 4 4, Fin.ext_iff]
  rfl

theorem sameBits_low_iff :
    SameBits 0 4 word other ↔ (low word).val = (low other).val := by
  rw [sameBits_iff 0 4, Nat.pow_zero, Nat.div_one, Nat.div_one]
  rfl

theorem sameBits_byte_iff : SameBits 0 8 word other ↔ byte word = byte other := by
  rw [sameBits_iff 0 8, ← UInt8.toNat_inj, Nat.pow_zero, Nat.div_one, Nat.div_one, byte, byte,
    UInt8.toNat_ofNat', UInt8.toNat_ofNat', Nat.mod_mod, Nat.mod_mod]
  rfl

theorem sameBits_address_iff : SameBits 0 12 word other ↔ address word = address other := by
  rw [sameBits_iff 0 12, Fin.ext_iff, Nat.pow_zero, Nat.div_one, Nat.div_one]
  rfl

theorem low_eq_address_mod (word : UInt16) : (low word).val = (address word).val % 16 :=
  (Nat.mod_mod_of_dvd word.toNat (by decide : 16 ∣ 4096)).symm

theorem sameBits_leading_iff :
    SameBits 8 16 word other ↔ family word = family other ∧ x word = x other := by
  rw [sameBits_append_iff (by decide : 8 ≤ 12) (by decide : 12 ≤ 16), sameBits_x_iff,
    sameBits_family_iff, and_comm]

/-!
## Words that agree
-/

theorem agreeExcept_iff (hignored : forall bit, ignored bit ↔ start ≤ bit ∧ bit < stop) :
    AgreeExcept ignored word other ↔
      SameBits 0 start word other ∧ SameBits stop 16 word other := by
  constructor
  · intro h
    constructor
    · intro bit _ hto
      exact h bit fun hbit => Nat.not_le_of_gt hto ((hignored bit).mp hbit).1
    · intro bit hfrom _
      exact h bit fun hbit => Nat.not_le_of_gt ((hignored bit).mp hbit).2 hfrom
  · intro h bit hbit
    rw [hignored, not_and, Nat.not_lt] at hbit
    rcases Nat.lt_or_ge bit 16 with hword | hbeyond
    · rcases Nat.lt_or_ge bit start with hfront | hbehind
      · exact h.1 bit (Nat.zero_le bit) hfront
      · exact h.2 bit (hbit hbehind) hword
    · have hfalse : forall w : UInt16, w.toNat.testBit bit = false := fun w =>
        Nat.testBit_lt_two_pow
          (Nat.lt_of_lt_of_le w.toNat_lt (Nat.pow_le_pow_right Nat.two_pos hbeyond))
      rw [hfalse, hfalse]

theorem agreeExcept_none_iff (hnone : forall bit, ¬ ignored bit) :
    AgreeExcept ignored word other ↔ SameBits 0 16 word other := by
  have hempty : forall bit, ignored bit ↔ 16 ≤ bit ∧ bit < 16 := fun bit =>
    iff_of_false (hnone bit) fun hbit => Nat.not_le_of_gt hbit.2 hbit.1
  rw [agreeExcept_iff hempty]
  exact and_iff_left fun bit hfrom hto => absurd hto (Nat.not_lt_of_ge hfrom)

theorem agreeExcept_none_iff_address (hnone : forall bit, ¬ ignored bit) :
    AgreeExcept ignored word other ↔
      family word = family other ∧ address word = address other := by
  rw [agreeExcept_none_iff hnone,
    sameBits_append_iff (Nat.zero_le 12) (by decide : 12 ≤ 16), sameBits_address_iff,
    sameBits_family_iff, and_comm]

theorem agreeExcept_none_iff_byte (hnone : forall bit, ¬ ignored bit) :
    AgreeExcept ignored word other ↔
      family word = family other ∧ x word = x other ∧ byte word = byte other := by
  rw [agreeExcept_none_iff hnone,
    sameBits_append_iff (Nat.zero_le 8) (by decide : 8 ≤ 16), sameBits_byte_iff,
    sameBits_leading_iff, and_comm, and_assoc]

theorem agreeExcept_none_iff_digits (hnone : forall bit, ¬ ignored bit) :
    AgreeExcept ignored word other ↔
      family word = family other ∧ (low word).val = (low other).val ∧
        x word = x other ∧ y word = y other := by
  rw [agreeExcept_none_iff hnone,
    sameBits_append_iff (Nat.zero_le 4) (by decide : 4 ≤ 16), sameBits_low_iff,
    sameBits_append_iff (by decide : 4 ≤ 8) (by decide : 8 ≤ 16), sameBits_y_iff,
    sameBits_leading_iff, and_comm (a := y word = y other), and_assoc, and_left_comm]

theorem agreeExcept_low_iff (hlow : forall bit, ignored bit ↔ bit ≤ 3) :
    AgreeExcept ignored word other ↔
      family word = family other ∧ x word = x other ∧ y word = y other := by
  have hrange : forall bit, ignored bit ↔ 0 ≤ bit ∧ bit < 4 := fun bit => by
    rw [hlow, Nat.lt_succ_iff]
    exact (and_iff_right (Nat.zero_le bit)).symm
  have hfront : SameBits 0 0 word other := fun bit _ hto => absurd hto (Nat.not_lt_zero bit)
  rw [agreeExcept_iff hrange, and_iff_right hfront,
    sameBits_append_iff (by decide : 4 ≤ 8) (by decide : 8 ≤ 16), sameBits_y_iff,
    sameBits_leading_iff, and_comm, and_assoc]

theorem agreeExcept_y_iff (hy : forall bit, ignored bit ↔ 4 ≤ bit ∧ bit ≤ 7) :
    AgreeExcept ignored word other ↔
      family word = family other ∧ (low word).val = (low other).val ∧ x word = x other := by
  have hrange : forall bit, ignored bit ↔ 4 ≤ bit ∧ bit < 8 := fun bit => by
    rw [hy, Nat.lt_succ_iff]
  rw [agreeExcept_iff hrange, sameBits_low_iff, sameBits_leading_iff, and_left_comm]

theorem agreeExcept_middle_iff (hmiddle : forall bit, ignored bit ↔ 4 ≤ bit ∧ bit ≤ 11) :
    AgreeExcept ignored word other ↔
      family word = family other ∧ (low word).val = (low other).val := by
  have hrange : forall bit, ignored bit ↔ 4 ≤ bit ∧ bit < 12 := fun bit => by
    rw [hmiddle, Nat.lt_succ_iff]
  rw [agreeExcept_iff hrange, sameBits_low_iff, sameBits_family_iff, and_comm]

/-!
## The fields of a written word
-/

theorem low_eq_byte_mod (word : UInt16) : (low word).val = (byte word).toNat % 16 := by
  show word.toNat % 16 = (UInt8.ofNat (word.toNat % 256)).toNat % 16
  rw [UInt8.toNat_ofNat', Nat.mod_mod, Nat.mod_mod_of_dvd word.toNat (by decide : 16 ∣ 256)]

theorem fields_ofDigits (digit : Nat) (x y : Fin 16) {last : Nat} (hlast : last < 16) :
    family (ofDigits digit x y last) = digit % 16 ∧
      (low (ofDigits digit x y last)).val = last ∧
      x = Opcode.x (ofDigits digit x y last) ∧ y = Opcode.y (ofDigits digit x y last) := by
  have hx := x.isLt
  have hy := y.isLt
  simp only [family, low, Opcode.x, Opcode.y, Fin.ext_iff, ofDigits, UInt16.toNat_ofNat']
  omega

theorem fields_ofByte (digit : Nat) (x : Fin 16) (byte : UInt8) :
    family (ofByte digit x byte) = digit % 16 ∧ x = Opcode.x (ofByte digit x byte) ∧
      byte = Opcode.byte (ofByte digit x byte) := by
  have hx := x.isLt
  have hbyte := byte.toNat_lt
  simp only [family, Opcode.x, Opcode.byte, Fin.ext_iff, ← UInt8.toNat_inj, ofByte,
    UInt8.toNat_ofNat', UInt16.toNat_ofNat']
  omega

theorem low_ofByte (digit : Nat) (x : Fin 16) (byte : UInt8) :
    (low (ofByte digit x byte)).val = byte.toNat % 16 := by
  rw [low_eq_byte_mod, ← (fields_ofByte digit x byte).2.2]

theorem fields_ofAddress (digit : Nat) (address : Fin 4096) :
    family (ofAddress digit address) = digit % 16 ∧
      address = Opcode.address (ofAddress digit address) := by
  have haddress := address.isLt
  simp only [family, Opcode.address, Fin.ext_iff, ofAddress, UInt16.toNat_ofNat']
  omega

end Opcode

theorem BinaryOp.digit_lt (op : BinaryOp) : op.digit < 16 := by
  cases op <;> decide

theorem UnaryOp.digit_lt (op : UnaryOp) : op.digit < 16 := by
  cases op <;> decide

/-!
## What instructions ignore
-/

def Condition.Ignores : Condition → Nat → Prop
  | .isByte _ _, _ | .isNotByte _ _, _ => False
  | .same _ _, bit | .differ _ _, bit => bit ≤ 3
  | .keyDown _, bit | .keyUp _, bit => 4 ≤ bit ∧ bit ≤ 7

namespace Instruction

def Ignores : Instruction → Nat → Prop
  | .clearScreen, bit | .ret, bit => 4 ≤ bit ∧ bit ≤ 11
  | .skipIf condition, bit => condition.Ignores bit
  | .unary _ _, bit => 4 ≤ bit ∧ bit ≤ 7
  | _, _ => False

/-- A word stands for the instruction. Only for a routine there may be none: an address
that ends in `0` or `E` is taken by another instruction of its family. -/
def HasWord : Instruction → Prop
  | .routine address => address.val % 16 ≠ 0x0 ∧ address.val % 16 ≠ 0xE
  | _ => True

variable {word other : UInt16} {instruction : Instruction}

open Opcode

theorem digit_iff {digit otherDigit value : Nat} (h : digit = value) :
    otherDigit = value ↔ digit = otherDigit := by
  rw [h]
  exact eq_comm

theorem agree_iff_spelledBy_condition {condition : Condition} (h : condition.SpelledBy word) :
    AgreeExcept condition.Ignores word other ↔ condition.SpelledBy other := by
  cases condition with
  | isByte x byte | isNotByte x byte =>
      rcases h with ⟨hfamily, rfl, rfl⟩
      apply (agreeExcept_none_iff_byte fun _ => id).trans
      exact and_congr_left' (digit_iff hfamily).symm
  | same x y | differ x y =>
      rcases h with ⟨hfamily, rfl, rfl⟩
      apply (agreeExcept_low_iff fun _ => Iff.rfl).trans
      exact and_congr_left' (digit_iff hfamily).symm
  | keyDown x | keyUp x =>
      rcases h with ⟨hfamily, hlow, rfl⟩
      apply (agreeExcept_y_iff fun _ => Iff.rfl).trans
      exact and_congr (digit_iff hfamily).symm (and_congr_left' (digit_iff hlow).symm)

theorem agree_iff_spelledBy (h : instruction.SpelledBy word) :
    AgreeExcept instruction.Ignores word other ↔ instruction.SpelledBy other := by
  cases instruction with
  | clearScreen | ret =>
      rcases h with ⟨hfamily, hlow⟩
      apply (agreeExcept_middle_iff fun _ => Iff.rfl).trans
      exact and_congr (digit_iff hfamily).symm (digit_iff hlow).symm
  | routine address =>
      rcases h with ⟨hfamily, hzero, hreturn, rfl⟩
      apply (agreeExcept_none_iff_address fun _ => id).trans
      constructor
      · intro h
        -- With the address goes the last digit, and so that it is neither `0` nor `E`.
        have hlow : (low other).val = (low word).val := by
          rw [low_eq_address_mod, low_eq_address_mod, h.2]
        rw [← hlow] at hzero hreturn
        exact ⟨(digit_iff hfamily).mpr h.1, hzero, hreturn, h.2⟩
      · intro h
        exact ⟨(digit_iff hfamily).mp h.1, h.2.2.2⟩
  | jump target | call target | jumpOffset base | setIndex address =>
      rcases h with ⟨hfamily, rfl⟩
      apply (agreeExcept_none_iff_address fun _ => id).trans
      exact and_congr_left' (digit_iff hfamily).symm
  | skipIf condition => exact agree_iff_spelledBy_condition h
  | setByte x byte | addByte x byte | random x byte =>
      rcases h with ⟨hfamily, rfl, rfl⟩
      apply (agreeExcept_none_iff_byte fun _ => id).trans
      exact and_congr_left' (digit_iff hfamily).symm
  | binary op x y =>
      rcases h with ⟨hfamily, hlow, rfl, rfl⟩
      apply (agreeExcept_none_iff_digits fun _ => id).trans
      exact and_congr (digit_iff hfamily).symm (and_congr_left' (digit_iff hlow).symm)
  | unary op x =>
      rcases h with ⟨hfamily, hlow, rfl⟩
      apply (agreeExcept_y_iff fun _ => Iff.rfl).trans
      exact and_congr (digit_iff hfamily).symm (and_congr_left' (digit_iff hlow).symm)
  | draw x y rows =>
      rcases h with ⟨hfamily, rfl, rfl, rfl⟩
      apply (agreeExcept_none_iff_digits fun _ => id).trans
      rw [← Fin.ext_iff, and_comm (a := low word = low other), and_assoc]
      exact and_congr_left' (digit_iff hfamily).symm
  | readDelay x | awaitKey x | setDelay x | setSound x | addIndex x | pointToGlyph x
  | storeDecimal x | storeRegisters x | loadRegisters x =>
      rcases h with ⟨hfamily, hbyte, rfl⟩
      apply (agreeExcept_none_iff_byte fun _ => id).trans
      rw [← UInt8.toNat_inj, and_comm (a := Opcode.x word = Opcode.x other)]
      exact and_congr (digit_iff hfamily).symm (and_congr_left' (digit_iff hbyte).symm)

/-!
## Encodings
-/

theorem spelledBy_encode_condition (condition : Condition) :
    condition.SpelledBy condition.encode := by
  cases condition with
  | isByte x byte | isNotByte x byte => exact fields_ofByte _ x byte
  | same x y =>
      rcases fields_ofDigits 0x5 x y (by decide : 0 < 16) with ⟨hfamily, _, hfields⟩
      exact ⟨hfamily, hfields⟩
  | differ x y =>
      rcases fields_ofDigits 0x9 x y (by decide : 0 < 16) with ⟨hfamily, _, hfields⟩
      exact ⟨hfamily, hfields⟩
  | keyDown x | keyUp x =>
      exact ⟨(fields_ofByte 0xE x _).1, low_ofByte 0xE x _, (fields_ofByte 0xE x _).2.1⟩

theorem deviceSpelling_ofByte (x : Register) (byte : UInt8) :
    DeviceSpelling (ofByte 0xF x byte) byte.toNat x := by
  rcases fields_ofByte 0xF x byte with ⟨hfamily, hx, hbyte⟩
  exact ⟨hfamily, (congrArg UInt8.toNat hbyte).symm, hx⟩

theorem spelledBy_encode (h : instruction.HasWord) :
    instruction.SpelledBy instruction.encode := by
  cases instruction with
  | clearScreen | ret => exact ⟨rfl, rfl⟩
  | routine address =>
      rcases fields_ofAddress 0x0 address with ⟨hfamily, haddress⟩
      have hlow := low_eq_address_mod (ofAddress 0x0 address)
      rw [← haddress] at hlow
      exact ⟨hfamily, hlow ▸ h.1, hlow ▸ h.2, haddress⟩
  | jump target | call target | jumpOffset target | setIndex target =>
      exact fields_ofAddress _ target
  | skipIf condition => exact spelledBy_encode_condition condition
  | setByte x byte | addByte x byte | random x byte => exact fields_ofByte _ x byte
  | binary op x y => exact fields_ofDigits 0x8 x y op.digit_lt
  | unary op x =>
      rcases fields_ofDigits 0x8 x 0 op.digit_lt with ⟨hfamily, hlow, hx, _⟩
      exact ⟨hfamily, hlow, hx⟩
  | draw x y rows =>
      rcases fields_ofDigits 0xD x y rows.isLt with ⟨hfamily, hlow, hx, hy⟩
      exact ⟨hfamily, hx, hy, Fin.ext hlow.symm⟩
  | readDelay x | awaitKey x | setDelay x | setSound x | addIndex x | pointToGlyph x
  | storeDecimal x | storeRegisters x | loadRegisters x => exact deviceSpelling_ofByte x _

theorem hasWord_of_spelledBy (h : instruction.SpelledBy word) : instruction.HasWord := by
  cases instruction with
  | routine address =>
      rcases h with ⟨_, hzero, hreturn, rfl⟩
      rw [low_eq_address_mod] at hzero hreturn
      exact ⟨hzero, hreturn⟩
  | _ => exact True.intro

/-!
## Decoding and encoding
-/

theorem decode_eq_ok_iff : decode word = .ok instruction ↔ instruction.SpelledBy word := by
  rw [← ofWord?_eq_some_iff, decode]
  cases ofWord? word with
  | some decoded => simp only [Except.ok.injEq, Option.some.injEq]
  | none => simp only [reduceCtorEq]

/-- Decoding undoes encoding, for every instruction that has a word. A word is decoded to an
instruction only if it is the encoding up to ignored bits, and then the words that are decoded
to the same instruction are those that agree with it up to ignored bits. -/
theorem decoding_ignores_bits :
    (forall instruction : Instruction, instruction.HasWord ->
      decode instruction.encode = .ok instruction) ∧
    (forall word instruction, decode word = .ok instruction ->
      instruction.HasWord ∧ AgreeExcept instruction.Ignores word instruction.encode) ∧
    (forall word other instruction, decode word = .ok instruction ->
      (decode other = .ok instruction ↔ AgreeExcept instruction.Ignores word other)) := by
  simp only [decode_eq_ok_iff]
  refine ⟨fun _ h => spelledBy_encode h, ?_, ?_⟩
  · intro word instruction h
    have hword := hasWord_of_spelledBy h
    exact ⟨hword, (agree_iff_spelledBy h).mpr (spelledBy_encode hword)⟩
  · intro word other instruction h
    exact (agree_iff_spelledBy h).symm

theorem third_digit_of_key_test_is_ignored :
    decode 0x0123 = .ok (.routine 0x123) ∧
      AgreeExcept (skipIf (.keyDown 3)).Ignores 0xE30E 0xE39E ∧
      decode 0xE3FE = .ok (.skipIf (.keyDown 3)) := by
  have hfields : AgreeExcept (skipIf (.keyDown 3)).Ignores 0xE30E 0xE3FE :=
    (agreeExcept_y_iff fun _ => Iff.rfl).mpr ⟨rfl, rfl, rfl⟩
  refine ⟨decoding_ignores_bits.1 (.routine 0x123) ⟨by decide, by decide⟩, ?_, ?_⟩
  · exact (decoding_ignores_bits.2.1 0xE30E _ rfl).2
  · exact (decoding_ignores_bits.2.2 0xE30E 0xE3FE _ rfl).mpr hfields

end Instruction

end Chip8
