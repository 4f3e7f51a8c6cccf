import Chip8.Proofs.Instruction.Failures
import Chip8.Proofs.Screen.Flips

/-!
# What a sprite covers

The flat indices on which the lit bits of a sprite fall, counted from its top left corner:
the row is the quotient by the width of the screen and the column the remainder. Columns
past the right edge are columns of the next row, and no two bits fall on the same index.
-/

namespace Chip8

namespace Machine

variable {m : Machine} {x y rows : Fin 16} {k : Nat}

def corner (m : Machine) (x y : Register) : Nat :=
  (m.registers.get x).toNat + 64 * (m.registers.get y).toNat

/-- A lit bit of the sprite of `rows` rows at the index falls on the flat index `k`. -/
structure Covers (m : Machine) (x y rows : Fin 16) (k : Nat) : Prop where
  corner_le : m.corner x y ≤ k
  column : (k - m.corner x y) % 64 < 8
  row : (k - m.corner x y) / 64 < rows.val
  lit : exists byte, m.memory[m.index.toNat + (k - m.corner x y) / 64]? = some byte ∧
    byte.toNat.testBit (7 - (k - m.corner x y) % 64) = true

theorem mem_litIndices_iff : k ∈ m.litIndices x y rows ↔ m.Covers x y rows k := by
  constructor
  · intro h
    rcases h with ⟨r, column, byte, hr, hcolumn, hbyte, hlit, rfl⟩
    have hoffset : (m.registers.get x).toNat + column + 64 * ((m.registers.get y).toNat + r) =
        m.corner x y + (column + 64 * r) := by
      unfold corner
      lia
    rw [hoffset]
    have hdistance : m.corner x y + (column + 64 * r) - m.corner x y = column + 64 * r :=
      Nat.add_sub_cancel_left _ _
    have hremainder : (column + 64 * r) % 64 = column := by lia
    have hquotient : (column + 64 * r) / 64 = r := by lia
    constructor
    · exact Nat.le_add_right _ _
    · rw [hdistance, hremainder]
      exact hcolumn
    · rw [hdistance, hquotient]
      exact hr
    · rw [hdistance, hremainder, hquotient]
      exact ⟨byte, hbyte, hlit⟩
  · intro h
    rcases h.lit with ⟨byte, hbyte, hlit⟩
    refine ⟨_, _, byte, h.row, h.column, hbyte, hlit, ?_⟩
    have hcorner := h.corner_le
    unfold corner at hcorner ⊢
    lia

theorem covers_of_lit {r column : Nat} {byte : UInt8} (hr : r < rows.val) (hcolumn : column < 8)
    (hbyte : m.memory[m.index.toNat + r]? = some byte)
    (hlit : byte.toNat.testBit (7 - column) = true) :
    m.Covers x y rows
      (Screen.index (((m.registers.get x).toNat + column) % 64)
        ((m.registers.get y).toNat + r + ((m.registers.get x).toNat + column) / 64)) := by
  apply mem_litIndices_iff.mp
  refine ⟨r, column, byte, hr, hcolumn, hbyte, hlit, ?_⟩
  unfold Screen.index
  lia

/-!
## Sprites that are drawn
-/

theorem spritePixels_nodup (m : Machine) (x y rows : Fin 16) :
    (m.spritePixels x y rows).Nodup :=
  (Sprite.pixels_ascending _ _ _).imp Nat.ne_of_lt

theorem fit_of_drawFailure?_eq_none (h : m.drawFailure? x y rows = none) :
    m.index.toNat + rows.val ≤ 4096 := by
  apply Nat.le_of_not_lt
  intro hlong
  rw [drawFailure?_of_long hlong] at h
  split at h <;> cases h

theorem mem_spritePixels_iff_covers (h : m.drawFailure? x y rows = none) :
    k ∈ m.spritePixels x y rows ↔ m.Covers x y rows k :=
  (mem_spritePixels_iff (fit_of_drawFailure?_eq_none h)).trans mem_litIndices_iff

theorem lt_of_covers (h : m.drawFailure? x y rows = none) (hcovers : m.Covers x y rows k) :
    k < 2048 := by
  have hnone := h
  rw [drawFailure?_of_fit (fit_of_drawFailure?_eq_none h), Option.map_eq_none_iff] at hnone
  have hmember := (mem_spritePixels_iff_covers h).mpr hcovers
  have hinside := List.find?_eq_none.mp hnone k hmember
  rw [decide_eq_true_eq] at hinside
  exact Nat.lt_of_not_le hinside

theorem exists_lit_iff {byte : UInt8} :
    (exists column, column < 8 ∧ byte.toNat.testBit (7 - column) = true) ↔ byte ≠ 0 := by
  constructor
  · rintro ⟨column, _, hlit⟩ rfl
    rw [UInt8.toNat_zero, Nat.zero_testBit] at hlit
    cases hlit
  · intro hbyte
    have hpos : byte.toNat ≠ 0 := fun hzero => hbyte (UInt8.toNat_inj.mp hzero)
    rcases Nat.exists_testBit_of_ne_zero hpos with ⟨i, hlit⟩
    have hi : i < 8 := by
      apply Nat.lt_of_not_le
      intro hlarge
      have hbound : byte.toNat < 2 ^ i :=
        Nat.lt_of_lt_of_le byte.toNat_lt (Nat.pow_le_pow_right (by decide) hlarge)
      rw [Nat.testBit_lt_two_pow hbound] at hlit
      cases hlit
    refine ⟨7 - i, by lia, ?_⟩
    have hback : 7 - (7 - i) = i := by lia
    rw [hback]
    exact hlit

theorem exists_covers_iff :
    (exists k, m.Covers x y rows k) ↔
      exists r byte, r < rows.val ∧ m.memory[m.index.toNat + r]? = some byte ∧ byte ≠ 0 := by
  constructor
  · rintro ⟨k, hcovers⟩
    rcases hcovers.lit with ⟨byte, hbyte, hlit⟩
    exact ⟨_, byte, hcovers.row, hbyte, exists_lit_iff.mp ⟨_, hcovers.column, hlit⟩⟩
  · rintro ⟨r, byte, hr, hbyte, hne⟩
    rcases exists_lit_iff.mpr hne with ⟨column, hcolumn, hlit⟩
    exact ⟨_, covers_of_lit hr hcolumn hbyte hlit⟩

end Machine

end Chip8
