import Chip8.Screen
import Mathlib.Data.List.Basic

/-!
# Flipping pixels

Flips of pixels commute, and two of the same pixel cancel. So a list of pixels can be
flipped in any order, and flipping it again restores the screen. If no pixel is listed
twice, each turn finds the pixel as it was before all flips, and flips it for good.
-/

namespace Chip8

namespace Screen

variable {screen : Screen} {i j k : Nat} {pixels : List Nat}

theorem byte_flip_flip (b : UInt8) : b ^^^ 1 ^^^ 1 = b := by
  rw [UInt8.xor_assoc, UInt8.xor_self, UInt8.xor_zero]

theorem byte_flip_eq_one_iff {b : UInt8} : b ^^^ 1 = 1 ↔ b = 0 := by
  constructor
  · intro h
    rw [← byte_flip_flip b, h, UInt8.xor_self]
  · intro h
    rw [h, UInt8.zero_xor]

theorem flip_flip (screen : Screen) (i : Nat) : (screen.flip i).flip i = screen := by
  apply Vector.ext
  intro k hk
  rw [getElem_flip, getElem_flip]
  split
  · exact byte_flip_flip _
  · rfl

theorem flip_comm (screen : Screen) (i j : Nat) :
    (screen.flip i).flip j = (screen.flip j).flip i := by
  apply Vector.ext
  intro k hk
  simp only [getElem_flip]
  split <;> split <;> rfl

/-!
## Lists of pixels
-/

theorem foldl_flip_flip (pixels : List Nat) (screen : Screen) (i : Nat) :
    pixels.foldl flip (screen.flip i) = (pixels.foldl flip screen).flip i := by
  induction pixels generalizing screen with
  | nil => rfl
  | cons j rest ih => rw [List.foldl_cons, List.foldl_cons, flip_comm, ih]

theorem foldl_flip_twice (pixels : List Nat) (screen : Screen) :
    pixels.foldl flip (pixels.foldl flip screen) = screen := by
  induction pixels with
  | nil => rfl
  | cons i rest ih =>
      rw [List.foldl_cons, List.foldl_cons, foldl_flip_flip, foldl_flip_flip,
        foldl_flip_flip, flip_flip, ih]

theorem foldl_flip_comm (pixels others : List Nat) (screen : Screen) :
    others.foldl flip (pixels.foldl flip screen) =
      pixels.foldl flip (others.foldl flip screen) := by
  induction pixels generalizing screen with
  | nil => rfl
  | cons i rest ih => rw [List.foldl_cons, List.foldl_cons, ih, foldl_flip_flip]

theorem getElem_foldl_flip (hnodup : pixels.Nodup) (hk : k < 2048) :
    (pixels.foldl flip screen)[k] = if k ∈ pixels then screen[k] ^^^ 1 else screen[k] := by
  induction pixels generalizing screen with
  | nil => rfl
  | cons i rest ih =>
      rw [List.nodup_cons] at hnodup
      rw [List.foldl_cons, ih hnodup.2, getElem_flip]
      by_cases heq : i = k
      · subst heq
        rw [if_neg hnodup.1, if_pos rfl, if_pos List.mem_cons_self]
      · have hmember : k ∈ i :: rest ↔ k ∈ rest := by
          rw [List.mem_cons, or_iff_right fun hki => heq hki.symm]
        simp only [hmember, if_neg heq]

/-!
## What drawing reports
-/

theorem isLit_iff (hk : k < 2048) : screen.isLit k = true ↔ screen[k] = 1 := by
  rw [isLit, Vector.getElem?_eq_getElem hk, Option.getD_some, beq_iff_eq]

theorem isLit_flip_of_ne (h : j ≠ i) : (screen.flip i).isLit j = screen.isLit j := by
  unfold isLit
  by_cases hj : j < 2048
  · rw [Vector.getElem?_eq_getElem hj, Vector.getElem?_eq_getElem hj, getElem_flip,
      if_neg h.symm]
  · rw [Vector.getElem?_eq_none (Nat.le_of_not_lt hj),
      Vector.getElem?_eq_none (Nat.le_of_not_lt hj)]

theorem flipAll_screen (pixels : List Nat) :
    (screen.flipAll pixels).2 = pixels.foldl Screen.flip screen := by
  unfold flipAll
  generalize false = hit
  induction pixels generalizing hit screen with
  | nil => rfl
  | cons i rest ih => exact ih _

theorem flipAll_hit_iff (hnodup : pixels.Nodup) :
    (screen.flipAll pixels).1 = true ↔ ∃ i ∈ pixels, screen.isLit i = true := by
  -- The report accumulates, so the induction starts from any report.
  refine Iff.trans ?_ (or_iff_right Bool.false_ne_true)
  unfold flipAll
  generalize false = hit
  induction pixels generalizing hit screen with
  | nil => simp
  | cons i rest ih =>
      rw [List.nodup_cons] at hnodup
      have hsame : (∃ j ∈ rest, (screen.flip i).isLit j = true) ↔
          ∃ j ∈ rest, screen.isLit j = true := by
        refine exists_congr fun j => and_congr_right fun hj => ?_
        rw [isLit_flip_of_ne (ne_of_mem_of_not_mem hj hnodup.1)]
      rw [List.foldl_cons, ih hnodup.2, hsame, Bool.or_eq_true, or_assoc,
        List.exists_mem_cons_iff]

end Screen

end Chip8
