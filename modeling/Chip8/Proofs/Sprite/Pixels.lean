import Chip8.Proofs.Instruction.Meaning
import Mathlib.Order.Bounds.Basic

/-!
# The pixels of a sprite

Which flat indices belong to the lit pixels of a sprite, and in which order they are
listed. A row is at most eight columns wide and the next one begins sixty-four further
on, so the list ascends, and the first pixel beyond the screen that a search meets is
the least of them.
-/

namespace Chip8

namespace Sprite

/-!
## Membership
-/

theorem mem_rowPixels_iff {x y i : Nat} {row : UInt8} :
    i ∈ rowPixels x y row ↔
      exists column, column < 8 ∧ isLit row column = true ∧
        i = Screen.index (x + column) y := by
  unfold rowPixels
  constructor
  · intro h
    rcases List.mem_map.mp h with ⟨column, hcolumn, rfl⟩
    rcases List.mem_filter.mp hcolumn with ⟨hrange, hlit⟩
    exact ⟨column, List.mem_range.mp hrange, hlit, rfl⟩
  · intro h
    rcases h with ⟨column, hrange, hlit, rfl⟩
    apply List.mem_map.mpr
    exact ⟨column, List.mem_filter.mpr ⟨List.mem_range.mpr hrange, hlit⟩, rfl⟩

theorem mem_pixels_iff {x y i : Nat} {sprite : List UInt8} :
    i ∈ pixels x y sprite ↔
      exists (r column : Nat) (row : UInt8), sprite[r]? = some row ∧ column < 8 ∧
        isLit row column = true ∧ i = Screen.index (x + column) (y + r) := by
  induction sprite generalizing y with
  | nil =>
      constructor
      · intro h
        cases h
      · intro h
        rcases h with ⟨r, column, row, hrow, _⟩
        cases hrow
  | cons first rest ih =>
      rw [pixels, List.mem_append, mem_rowPixels_iff, ih]
      constructor
      · intro h
        rcases h with ⟨column, hcolumn, hlit, rfl⟩ | ⟨r, column, row, hrow, hcolumn, hlit, rfl⟩
        · exact ⟨0, column, first, rfl, hcolumn, hlit, rfl⟩
        · refine ⟨r + 1, column, row, hrow, hcolumn, hlit, ?_⟩
          rw [Nat.add_assoc y 1 r, Nat.add_comm 1 r]
      · intro h
        rcases h with ⟨r, column, row, hrow, hcolumn, hlit, rfl⟩
        cases r with
        | zero =>
            cases hrow
            exact Or.inl ⟨column, hcolumn, hlit, rfl⟩
        | succ r =>
            refine Or.inr ⟨r, column, row, hrow, hcolumn, hlit, ?_⟩
            rw [Nat.add_assoc y 1 r, Nat.add_comm 1 r]

/-!
## Order
-/

theorem rowPixels_ascending (x y : Nat) (row : UInt8) :
    (rowPixels x y row).Pairwise (· < ·) := by
  unfold rowPixels
  rw [List.pairwise_map]
  apply List.Pairwise.filter
  apply List.pairwise_lt_range.imp
  intro a b hab
  unfold Screen.index
  lia

theorem pixels_ascending (x y : Nat) (sprite : List UInt8) :
    (pixels x y sprite).Pairwise (· < ·) := by
  induction sprite generalizing y with
  | nil => exact List.Pairwise.nil
  | cons first rest ih =>
      rw [pixels, List.pairwise_append]
      refine ⟨rowPixels_ascending x y first, ih (y + 1), ?_⟩
      intro i hi j hj
      -- A row of the sprite ends seven columns on, before the next row of the screen.
      rcases mem_rowPixels_iff.mp hi with ⟨column, hcolumn, _, rfl⟩
      rcases mem_pixels_iff.mp hj with ⟨r, other, _, _, _, _, rfl⟩
      unfold Screen.index
      lia

end Sprite

theorem isLeast_of_find? {α : Type} [Preorder α] {members : List α} {accepts : α → Bool} {i : α}
    (hascending : members.Pairwise (· < ·)) (hfound : members.find? accepts = some i) :
    IsLeast {j | j ∈ members ∧ accepts j = true} i := by
  rcases List.find?_eq_some_iff_append.mp hfound with ⟨haccepts, before, behind, rfl, hbefore⟩
  constructor
  · exact ⟨List.mem_append_right before List.mem_cons_self, haccepts⟩
  · intro j h
    rcases h with ⟨hj, hjaccepts⟩
    rcases List.mem_append.mp hj with hj | hj
    · have hrefused := hbefore j hj
      rw [hjaccepts] at hrefused
      cases hrefused
    · rcases List.mem_cons.mp hj with rfl | hj
      · exact le_refl j
      · have hbehind := (List.pairwise_append.mp hascending).2.1
        exact le_of_lt (List.rel_of_pairwise_cons hbehind hj)

namespace Machine

variable {m : Machine}

/-!
## Sprites in memory
-/

def litIndices (m : Machine) (x y rows : Fin 16) : Set Nat :=
  {i | exists (r column : Nat) (row : UInt8), r < rows.val ∧ column < 8 ∧
    m.memory[m.index.toNat + r]? = some row ∧ row.toNat.testBit (7 - column) = true ∧
    i = (m.registers.get x).toNat + column + 64 * ((m.registers.get y).toNat + r)}

theorem getElem?_bytesAtIndex_eq_some_iff {len k : Nat} {byte : UInt8}
    (hfit : m.index.toNat + len ≤ 4096) :
    (m.bytesAtIndex len)[k]? = some byte ↔
      k < len ∧ m.memory[m.index.toNat + k]? = some byte := by
  have hslice := slice?_bytesAtIndex hfit
  by_cases hk : k < len
  · rw [Bytes.getElem?_of_slice? hslice k hk]
    exact ⟨fun h => ⟨hk, h⟩, fun h => h.2⟩
  · have hlength := Bytes.length_of_slice? hslice
    constructor
    · intro h
      rcases List.getElem?_eq_some_iff.mp h with ⟨hlt, _⟩
      rw [hlength] at hlt
      exact absurd hlt hk
    · intro h
      exact absurd h.1 hk

theorem mem_spritePixels_iff {x y rows : Fin 16} {i : Nat}
    (hfit : m.index.toNat + rows.val ≤ 4096) :
    i ∈ m.spritePixels x y rows ↔ i ∈ m.litIndices x y rows := by
  unfold spritePixels
  rw [Sprite.mem_pixels_iff]
  constructor
  · intro h
    rcases h with ⟨r, column, row, hrow, hcolumn, hlit, rfl⟩
    rcases (getElem?_bytesAtIndex_eq_some_iff hfit).mp hrow with ⟨hr, hbyte⟩
    exact ⟨r, column, row, hr, hcolumn, hbyte, hlit, rfl⟩
  · intro h
    rcases h with ⟨r, column, row, hr, hcolumn, hbyte, hlit, rfl⟩
    have hrow := (getElem?_bytesAtIndex_eq_some_iff hfit).mpr ⟨hr, hbyte⟩
    exact ⟨r, column, row, hrow, hcolumn, hlit, rfl⟩

theorem find?_spritePixels_eq_some_iff {x y rows : Fin 16} {i : Nat}
    (hfit : m.index.toNat + rows.val ≤ 4096) :
    ((m.spritePixels x y rows).find? fun j => decide (Screen.size ≤ j)) = some i ↔
      IsLeast {j | j ∈ m.litIndices x y rows ∧ 2048 ≤ j} i := by
  have hsame : {j | j ∈ m.spritePixels x y rows ∧ decide (Screen.size ≤ j) = true} =
      {j | j ∈ m.litIndices x y rows ∧ 2048 ≤ j} := by
    ext j
    constructor
    · intro h
      rcases h with ⟨hmember, hbeyond⟩
      exact ⟨(mem_spritePixels_iff hfit).mp hmember, of_decide_eq_true hbeyond⟩
    · intro h
      rcases h with ⟨hmember, hbeyond⟩
      exact ⟨(mem_spritePixels_iff hfit).mpr hmember, decide_eq_true hbeyond⟩
  have hleast : forall k,
      ((m.spritePixels x y rows).find? fun j => decide (Screen.size ≤ j)) = some k ->
        IsLeast {j | j ∈ m.litIndices x y rows ∧ 2048 ≤ j} k := by
    intro k hfound
    rw [← hsame]
    exact isLeast_of_find? (Sprite.pixels_ascending _ _ _) hfound
  constructor
  · exact hleast i
  · intro h
    cases hfound : (m.spritePixels x y rows).find? fun j => decide (Screen.size ≤ j) with
    | some k => rw [(hleast k hfound).unique h]
    | none =>
        have hmember := h.1
        rw [← hsame] at hmember
        exact absurd hmember.2 (List.find?_eq_none.mp hfound i hmember.1)

end Machine

end Chip8
