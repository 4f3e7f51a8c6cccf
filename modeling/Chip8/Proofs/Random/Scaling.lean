import Chip8.Machine
import Mathlib.Data.Nat.Bitwise

/-!
# Scaling random words

A random byte is a fraction of the range, and the fraction has two words behind its point. Only
the first of them is drawn as a rule. The second can add no more than one to the byte, and it
is drawn exactly when the remainder that the first one leaves is so large that this could
happen. The largest byte leaves no such remainder, so it stays the largest.
-/

namespace Chip8

namespace Random

/-- The byte that the fraction with both words behind its point gives. -/
def fullyScaled (first second : UInt32) : Nat :=
  255 * (first.toNat * 2 ^ 32 + second.toNat) / 2 ^ 64

variable {first second : UInt32}

/-!
## One word
-/

theorem scaled_add_remainder (word : UInt32) :
    2 ^ 32 * scaled word + remainder word = 255 * word.toNat := by
  rw [Nat.mul_comm 255]
  exact Nat.div_add_mod (word.toNat * range) UInt32.size

theorem remainder_lt (word : UInt32) : remainder word < 2 ^ 32 :=
  Nat.mod_lt _ (by decide)

theorem scaled_le (word : UInt32) : scaled word ≤ 254 := by
  have hword := word.toNat_lt
  have hsum := scaled_add_remainder word
  lia

theorem needsCarry_iff : needsCarry first = true ↔ 2 ^ 32 - 255 < remainder first :=
  decide_eq_true_iff

theorem not_needsCarry_of_scaled (h : scaled first = 254) : needsCarry first = false := by
  have hword := first.toNat_lt
  have hsum := scaled_add_remainder first
  rw [← Bool.not_eq_true, needsCarry_iff]
  lia

/-!
## The carry of the second word
-/

theorem carry_le (first second : UInt32) : carry first second ≤ 1 := by
  have hremainder := remainder_lt first
  have hscaled := scaled_le second
  apply Nat.le_of_lt_succ
  apply Nat.div_lt_of_lt_mul
  rw [UInt32.size]
  lia

theorem carry_of_not_needsCarry (h : needsCarry first = false) (second : UInt32) :
    carry first second = 0 := by
  have hscaled := scaled_le second
  rw [← Bool.not_eq_true, needsCarry_iff] at h
  apply Nat.div_eq_of_lt
  rw [UInt32.size]
  lia

theorem carry_of_scaled (h : scaled first = 254) (second : UInt32) : carry first second = 0 :=
  carry_of_not_needsCarry (not_needsCarry_of_scaled h) second

theorem fullyScaled_eq (first second : UInt32) :
    fullyScaled first second = scaled first + carry first second := by
  have hfirst := scaled_add_remainder first
  have hsecond := scaled_add_remainder second
  have hremainder := remainder_lt second
  have hcarry : carry first second = (remainder first + scaled second) / 2 ^ 32 := rfl
  rw [fullyScaled, hcarry]
  lia

theorem fullyScaled_le (first second : UInt32) : fullyScaled first second ≤ 254 := by
  have hscaled := scaled_le first
  have hcarry := carry_le first second
  rw [fullyScaled_eq]
  -- Below the largest byte there is room for the carry, and the largest byte has none.
  rcases Nat.lt_or_eq_of_le hscaled with hlt | hlast
  · lia
  · rw [carry_of_scaled hlast]
    exact hscaled

theorem fullyScaled_of_not_needsCarry (h : needsCarry first = false) (second : UInt32) :
    fullyScaled first second = scaled first := by
  rw [fullyScaled_eq, carry_of_not_needsCarry h, Nat.add_zero]

/-!
## The generator
-/

namespace Generator

def words (generator : Generator) : Nat :=
  if 255 * (generator.peek 0).toNat % 2 ^ 32 ≤ 2 ^ 32 - 255 then 1 else 2

theorem words_eq (generator : Generator) :
    generator.words = if needsCarry (generator.peek 0) then 2 else 1 := by
  have hremainder : 255 * (generator.peek 0).toNat % 2 ^ 32 = remainder (generator.peek 0) := by
    rw [Nat.mul_comm]
    rfl
  rw [words, hremainder]
  simp only [needsCarry_iff, ← Nat.not_le, ite_not]

theorem next_eq (generator : Generator) :
    generator.next =
      (UInt8.ofNat (fullyScaled (generator.peek 0) (generator.peek 1)),
        generator.skip generator.words) := by
  rw [next, words_eq]
  cases hcarry : needsCarry (generator.peek 0) with
  | true => rw [if_pos rfl, if_pos rfl, fullyScaled_eq]
  | false =>
      rw [if_neg Bool.false_ne_true, if_neg Bool.false_ne_true,
        fullyScaled_of_not_needsCarry hcarry]

end Generator

/-- A random byte is the floor of the fraction in which both words count, whether one word was
drawn for it or two, and it is at most 254. The second word adds one or nothing, nothing to the
largest byte, and nothing whenever it is not drawn. -/
theorem random_byte_is_fully_scaled :
    (forall m : Machine, exists byte,
      Machine.nextRandom m =
        .ok byte { m with generator := m.generator.skip m.generator.words } ∧
      byte.toNat = fullyScaled (m.generator.peek 0) (m.generator.peek 1) ∧ byte.toNat ≤ 254) ∧
    (forall first second, fullyScaled first second = scaled first + carry first second ∧
      carry first second ≤ 1 ∧ fullyScaled first second ≤ 254 ∧
      (scaled first = 254 -> carry first second = 0)) ∧
    (forall first second, needsCarry first = false ->
      fullyScaled first second = scaled first) := by
  refine ⟨?_, ?_, ?_⟩
  · intro m
    have hle := fullyScaled_le (m.generator.peek 0) (m.generator.peek 1)
    have hbyte : (UInt8.ofNat (fullyScaled (m.generator.peek 0) (m.generator.peek 1))).toNat =
        fullyScaled (m.generator.peek 0) (m.generator.peek 1) :=
      UInt8.toNat_ofNat_of_lt' (Nat.lt_of_le_of_lt hle (by decide))
    have hdrawn : Machine.nextRandom m =
        .ok m.generator.next.1 { m with generator := m.generator.next.2 } := rfl
    rw [Generator.next_eq] at hdrawn
    exact ⟨_, hdrawn, hbyte, Nat.le_trans (Nat.le_of_eq hbyte) hle⟩
  · intro first second
    exact ⟨fullyScaled_eq first second, carry_le first second, fullyScaled_le first second,
      fun hlast => carry_of_scaled hlast second⟩
  · intro first second hfew
    exact fullyScaled_of_not_needsCarry hfew second

theorem largest_word_is_not_carried :
    carry 0xFFFFFFFF 0xFFFFFFFF = 0 ∧ fullyScaled 0xFFFFFFFF 0xFFFFFFFF = 254 ∧
      needsCarry 0x01010101 = true ∧ fullyScaled 0x01010101 0x02020202 = 1 := by
  rcases random_byte_is_fully_scaled with ⟨_, hcarry, hfew⟩
  have hlast : scaled 0xFFFFFFFF = 254 := by decide
  have hundrawn : needsCarry 0xFFFFFFFF = false := by decide
  have hone : scaled 0x01010101 + carry 0x01010101 0x02020202 = 1 := by decide
  exact ⟨(hcarry 0xFFFFFFFF 0xFFFFFFFF).2.2.2 hlast,
    (hfew 0xFFFFFFFF 0xFFFFFFFF hundrawn).trans hlast, by decide,
    (hcarry 0x01010101 0x02020202).1.trans hone⟩

end Random

end Chip8
