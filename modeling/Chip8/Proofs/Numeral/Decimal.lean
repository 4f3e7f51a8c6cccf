import Mathlib.Data.List.Induction
import Mathlib.Data.Nat.Digits.Defs
import Chip8.Numeral.Decimal

/-!
# Decimal numerals

A numeral is an optional plus sign and one or more decimal digits, of which the first may be
zeros. Reading accepts the numerals and nothing else, and gives the number that the digits
have by their places. What is written for a number is a numeral of it, and remains one when
zeros and a sign are put in front.
-/

namespace Chip8.Numeral

theorem ofDigits_eq (base : Nat) (ds : List Nat) :
    ofDigits base ds = Nat.ofDigits base ds.reverse := by
  induction ds using List.reverseRecOn with
  | nil => rfl
  | append_singleton front last ih =>
      rw [ofDigits_append_singleton, ih, List.reverse_append, List.reverse_singleton,
        List.singleton_append, Nat.ofDigits_cons, Nat.add_comm]

theorem ofDigits_cons_zero (base : Nat) (ds : List Nat) :
    ofDigits base (0 :: ds) = ofDigits base ds := by
  rw [ofDigits, List.foldl_cons, Nat.mul_zero, Nat.add_zero, ofDigits]

theorem ofDigits_leading_zeros (base zeros : Nat) (ds : List Nat) :
    ofDigits base (List.replicate zeros 0 ++ ds) = ofDigits base ds := by
  induction zeros with
  | zero => rfl
  | succ zeros ih =>
      rw [List.replicate_succ, List.cons_append, ofDigits_cons_zero, ih]

theorem digits_ne_nil (base n : Nat) : digits base n ≠ [] := by
  rw [digits]
  split
  · exact List.cons_ne_nil n []
  · exact List.append_ne_nil_of_right_ne_nil _ (List.cons_ne_nil _ [])

theorem lt_of_mem_digits {base n d : Nat} (hbase : 2 ≤ base) (h : d ∈ digits base n) :
    d < base := by
  induction n using digits.induct base with
  | case1 n hsmall =>
      rw [digits, dif_pos hsmall, List.mem_singleton] at h
      rw [h]
      exact hsmall.resolve_right (Nat.not_lt_of_ge hbase)
  | case2 n hlarge ih =>
      rw [digits, dif_neg hlarge, List.mem_append, List.mem_singleton] at h
      rcases h with hfront | hlast
      · exact ih hfront
      · rw [hlast]
        exact Nat.mod_lt n (Nat.lt_of_lt_of_le Nat.two_pos hbase)

namespace Decimal

/-!
## Digits
-/

theorem digit?_symbol {d : Nat} (h : d < 10) : digit? (symbol d) = some d := by
  decide +revert

theorem symbol_eq_ofNat {d : Nat} (h : d < 10) : symbol d = Char.ofNat (48 + d) := by
  decide +revert

theorem digit?_eq_some_iff {c : Char} {d : Nat} :
    digit? c = some d ↔ d < 10 ∧ c = symbol d := by
  constructor
  · intro h
    unfold digit? at h
    split at h
    · rename_i hrange
      cases h
      have hfirst : 48 ≤ c.toNat := hrange.1
      have hlast : c.toNat ≤ 57 := hrange.2
      have hdigit : c.toNat - '0'.toNat < 10 := Nat.sub_lt_left_of_lt_add hfirst (by lia)
      have hback : 48 + (c.toNat - '0'.toNat) = c.toNat := Nat.add_sub_cancel' hfirst
      refine ⟨hdigit, ?_⟩
      rw [symbol_eq_ofNat hdigit, hback, Char.ofNat_toNat]
    · cases h
  · intro h
    rw [h.2]
    exact digit?_symbol h.1

theorem mapM_digit?_eq_some_iff {cs : List Char} {ds : List Nat} :
    cs.mapM digit? = some ds ↔ (∀ d ∈ ds, d < 10) ∧ cs = ds.map symbol := by
  induction cs generalizing ds with
  | nil =>
      rw [List.mapM_nil]
      constructor
      · intro h
        cases h
        exact ⟨fun d hd => absurd hd List.not_mem_nil, rfl⟩
      · intro h
        rw [List.map_eq_nil_iff.mp h.2.symm]
        rfl
  | cons c cs ih =>
      rw [List.mapM_cons]
      constructor
      · intro h
        rcases Option.bind_eq_some_iff.mp h with ⟨d, hd, hrest⟩
        rcases Option.bind_eq_some_iff.mp hrest with ⟨rest, hmap, hds⟩
        cases hds
        rcases digit?_eq_some_iff.mp hd with ⟨hlt, hc⟩
        rcases ih.mp hmap with ⟨hdigits, hcs⟩
        rw [List.forall_mem_cons, List.map_cons, ← hc, ← hcs]
        exact ⟨⟨hlt, hdigits⟩, rfl⟩
      · intro h
        rcases h with ⟨hdigits, hcs⟩
        cases ds with
        | nil => cases hcs
        | cons d ds =>
            rw [List.map_cons, List.cons.injEq] at hcs
            rw [List.forall_mem_cons] at hdigits
            rw [digit?_eq_some_iff.mpr ⟨hdigits.1, hcs.1⟩, ih.mpr ⟨hdigits.2, hcs.2⟩]
            rfl

/-!
## Numerals
-/

/-- The text is an optional plus sign and one or more decimal digits, the last one for the
ones and each one before for ten times as much as the next, and they add up to the number. -/
def Denotes (text : String) (n : Nat) : Prop :=
  exists sign ds, text.toList = sign ++ ds.map symbol ∧ (sign = [] ∨ sign = ['+']) ∧
    ds ≠ [] ∧ (∀ d ∈ ds, d < 10) ∧ Nat.ofDigits 10 ds.reverse = n

theorem symbol_ne_plus {d : Nat} (h : d < 10) : symbol d ≠ '+' := by
  decide +revert

theorem dropPlus_of_ne {c : Char} (h : c ≠ '+') (rest : List Char) :
    dropPlus (c :: rest) = c :: rest := by
  unfold dropPlus
  split
  · rename_i hplus
    cases hplus
    exact absurd rfl h
  · rfl

theorem dropPlus_append {sign : List Char} {ds : List Nat}
    (hsign : sign = [] ∨ sign = ['+']) (hdigits : ∀ d ∈ ds, d < 10) :
    dropPlus (sign ++ ds.map symbol) = ds.map symbol := by
  rcases hsign with rfl | rfl
  · cases ds with
    | nil => rfl
    | cons d ds => exact dropPlus_of_ne (symbol_ne_plus (hdigits d List.mem_cons_self)) _
  · rfl

theorem exists_sign_append (text : List Char) :
    exists sign, (sign = [] ∨ sign = ['+']) ∧ text = sign ++ dropPlus text := by
  unfold dropPlus
  split
  · exact ⟨['+'], Or.inr rfl, rfl⟩
  · exact ⟨[], Or.inl rfl, rfl⟩

theorem read?_eq_some_iff {text : String} {n : Nat} :
    read? text = some n ↔ Denotes text n := by
  constructor
  · intro h
    unfold read? at h
    split at h
    · cases h
    · rename_i c rest hdrop
      rcases Option.map_eq_some_iff.mp h with ⟨ds, hmap, hvalue⟩
      rcases mapM_digit?_eq_some_iff.mp hmap with ⟨hdigits, hcs⟩
      rcases exists_sign_append text.toList with ⟨sign, hsign, htext⟩
      rw [hdrop, hcs] at htext
      refine ⟨sign, ds, htext, hsign, ?_, hdigits, ?_⟩
      · rintro rfl
        cases hcs
      · rw [← ofDigits_eq, hvalue]
  · intro h
    rcases h with ⟨sign, ds, htext, hsign, hne, hdigits, hvalue⟩
    have hdrop : dropPlus text.toList = ds.map symbol := by
      rw [htext, dropPlus_append hsign hdigits]
    have hmap := mapM_digit?_eq_some_iff.mpr ⟨hdigits, rfl⟩
    cases ds with
    | nil => exact absurd rfl hne
    | cons d ds =>
        rw [List.map_cons] at hdrop hmap
        simp only [read?, hdrop, hmap, Option.map_some, ofDigits_eq, hvalue]

theorem readBits?_eq_some_iff {width n : Nat} {text : String} :
    readBits? width text = some n ↔ Denotes text n ∧ n < 2 ^ width := by
  rw [readBits?, Option.filter_eq_some_iff, read?_eq_some_iff]
  exact and_congr_right' decide_eq_true_iff

/-!
## Written numbers
-/

theorem denotes_render {sign : List Char} (hsign : sign = [] ∨ sign = ['+']) (zeros n : Nat) :
    Denotes (String.ofList (sign ++ List.replicate zeros '0') ++ render n) n := by
  refine ⟨sign, List.replicate zeros 0 ++ digits 10 n, ?_, hsign, ?_, ?_, ?_⟩
  · rw [String.toList_append, String.toList_ofList, render, String.toList_ofList,
      List.map_append, List.map_replicate, List.append_assoc]
    rfl
  · exact List.append_ne_nil_of_right_ne_nil _ (digits_ne_nil 10 n)
  · intro d hd
    rcases List.mem_append.mp hd with hzero | hdigit
    · rw [List.eq_of_mem_replicate hzero]
      decide
    · exact lt_of_mem_digits (by decide) hdigit
  · rw [← ofDigits_eq, ofDigits_leading_zeros, ofDigits_digits]

end Decimal

end Chip8.Numeral
