import Mathlib.Data.Nat.Log
import Chip8.Numeral.Hex
import Chip8.Proofs.Numeral.Decimal

/-!
# Written numbers

A number is written with the digits it needs and with zeros in front where these are fewer
than a least number of digits. The digits tell the number, also where text follows that does
not go on with a digit.
-/

namespace Chip8.Numeral

section Digits

variable {base least other n m : Nat} {text : List Char}

/-- The characters are digits of the base, the last one for the ones and each one before for
`base` times as much as the next, and they add up to the number. There are as many as the
number needs, and at least `least`. -/
def Written (base least : Nat) (text : List Char) (n : Nat) : Prop :=
  exists ds : List Nat, text = ds.map symbol ∧ (∀ d ∈ ds, d < base) ∧
    ds.length = max least (Nat.log base n + 1) ∧ Nat.ofDigits base ds.reverse = n

theorem length_digits (hbase : 2 ≤ base) (n : Nat) :
    (digits base n).length = Nat.log base n + 1 := by
  induction n using digits.induct base with
  | case1 n hsmall =>
      have hlt : n < base := hsmall.resolve_right (Nat.not_lt_of_ge hbase)
      rw [digits, dif_pos hsmall, List.length_singleton, Nat.log_of_lt hlt]
  | case2 n hlarge ih =>
      have hle : base ≤ n := Nat.le_of_not_lt (fun hlt => hlarge (Or.inl hlt))
      rw [digits, dif_neg hlarge, List.length_append, ih, List.length_singleton,
        Nat.log_of_one_lt_of_le hbase hle]

theorem symbol_zero : symbol 0 = '0' :=
  rfl

theorem padLeft_map_symbol (least : Nat) (ds : List Nat) :
    padLeft least (ds.map symbol) =
      (List.replicate (least - ds.length) 0 ++ ds).map symbol := by
  rw [padLeft, List.length_map, List.map_append, List.map_replicate, symbol_zero]

theorem written_padLeft (hbase : 2 ≤ base) (least n : Nat) :
    Written base least (padLeft least ((digits base n).map symbol)) n := by
  refine ⟨_, padLeft_map_symbol least (digits base n), ?_, ?_, ?_⟩
  · intro d hd
    rcases List.mem_append.mp hd with hzero | hdigit
    · rw [List.eq_of_mem_replicate hzero]
      exact Nat.zero_lt_of_lt hbase
    · exact lt_of_mem_digits hbase hdigit
  · rw [List.length_append, List.length_replicate, length_digits hbase,
      Nat.sub_add_eq_max]
  · rw [← ofDigits_eq, ofDigits_leading_zeros, ofDigits_digits]

theorem written_iff (hbase : 2 ≤ base) :
    Written base least text n ↔ text = padLeft least ((digits base n).map symbol) := by
  constructor
  · intro h
    rcases h with ⟨ds, htext, hdigits, hlength, hvalue⟩
    rcases written_padLeft hbase least n with ⟨padded, hpadded, hplaces, hwidth, hnumber⟩
    have hreverse : ds.reverse = padded.reverse := by
      refine Nat.ofDigits_inj_of_len_eq hbase ?_ ?_ ?_ (hvalue.trans hnumber.symm)
      · rw [List.length_reverse, List.length_reverse, hlength, hwidth]
      · simpa only [List.mem_reverse] using hdigits
      · simpa only [List.mem_reverse] using hplaces
    rw [htext, hpadded, List.reverse_inj.mp hreverse]
  · intro h
    rw [h]
    exact written_padLeft hbase least n

/-!
## Where a number ends
-/

def Ends (rest : List Char) : Prop :=
  forall d, d < 16 -> rest.head? ≠ some (symbol d)

theorem ends_nil : Ends [] :=
  fun d _ => (Option.some_ne_none (symbol d)).symm

theorem ends_empty : Ends "".toList :=
  ends_nil

theorem symbol_ne_space {d : Nat} (h : d < 16) : symbol d ≠ ' ' := by
  decide +revert

theorem ends_space (rest : List Char) : Ends (' ' :: rest) :=
  fun _ hd h => symbol_ne_space hd (Option.some.inj h).symm

theorem symbol_inj {d e : Nat} (hd : d < 16) (he : e < 16) (h : symbol d = symbol e) :
    d = e := by
  have hall : forall d, d < 16 -> forall e, e < 16 -> symbol d = symbol e -> d = e := by decide
  exact hall d hd e he h

theorem map_symbol_append_inj {ds es : List Nat} {rest tail : List Char}
    (hds : ∀ d ∈ ds, d < 16) (hes : ∀ e ∈ es, e < 16) (hrest : Ends rest) (htail : Ends tail)
    (h : ds.map symbol ++ rest = es.map symbol ++ tail) : ds = es ∧ rest = tail := by
  induction ds generalizing es with
  | nil =>
      cases es with
      | nil => exact ⟨rfl, h⟩
      | cons e es =>
          have hhead : rest.head? = some (symbol e) := congrArg List.head? h
          exact absurd hhead (hrest e (hes e List.mem_cons_self))
  | cons d ds ih =>
      cases es with
      | nil =>
          have hhead : tail.head? = some (symbol d) := congrArg List.head? h.symm
          exact absurd hhead (htail d (hds d List.mem_cons_self))
      | cons e es =>
          rw [List.forall_mem_cons] at hds hes
          rw [List.map_cons, List.map_cons, List.cons_append, List.cons_append,
            List.cons.injEq] at h
          rcases ih hds.2 hes.2 h.2 with ⟨hdigits, htails⟩
          exact ⟨List.cons_eq_cons.mpr ⟨symbol_inj hds.1 hes.1 h.1, hdigits⟩, htails⟩

theorem Written.append_inj {left right rest tail : List Char} (hbase : base ≤ 16)
    (hn : Written base least left n) (hm : Written base other right m)
    (hrest : Ends rest) (htail : Ends tail) (h : left ++ rest = right ++ tail) :
    n = m ∧ rest = tail := by
  rcases hn with ⟨ds, rfl, hds, _, hvalue⟩
  rcases hm with ⟨es, rfl, hes, _, hnumber⟩
  have hdigits : ∀ d ∈ ds, d < 16 := fun d hd => Nat.lt_of_lt_of_le (hds d hd) hbase
  have hplaces : ∀ e ∈ es, e < 16 := fun e he => Nat.lt_of_lt_of_le (hes e he) hbase
  rcases map_symbol_append_inj hdigits hplaces hrest htail h with ⟨rfl, htails⟩
  exact ⟨hvalue.symm.trans hnumber, htails⟩

end Digits

/-!
## Forms
-/

inductive Form where
  | decimal
  | hex (least : Nat)

namespace Form

def base : Form → Nat
  | decimal => 10
  | hex _ => 16

def least : Form → Nat
  | decimal => 0
  | hex least => least

def lead : Form → List Char
  | decimal => []
  | hex _ => ['0', 'x']

def render : Form → Nat → String
  | decimal, n => Decimal.render n
  | hex least, n => Hex.render least n

variable {form : Form} {n m : Nat}

theorem two_le_base (form : Form) : 2 ≤ form.base := by
  cases form with
  | decimal => exact Nat.le_add_left 2 8
  | hex least => exact Nat.le_add_left 2 14

theorem base_le (form : Form) : form.base ≤ 16 := by
  cases form with
  | decimal => exact Nat.le_add_right 10 6
  | hex least => exact Nat.le_refl 16

theorem toList_render (form : Form) (n : Nat) :
    (form.render n).toList =
      form.lead ++ padLeft form.least ((digits form.base n).map symbol) := by
  cases form with
  | decimal =>
      rw [render, Decimal.render, String.toList_ofList, padLeft]
      simp only [least, Nat.zero_sub, List.replicate_zero, List.nil_append, lead, base]
  | hex least =>
      rw [render, Hex.render, String.toList_ofList]
      rfl

theorem eq_render_iff {text : String} :
    text = form.render n ↔
      exists digits, text.toList = form.lead ++ digits ∧
        Written form.base form.least digits n := by
  simp only [written_iff form.two_le_base, exists_eq_right, ← String.toList_inj,
    toList_render]

theorem written_decimal_iff {text : String} :
    Written 10 0 text.toList n ↔ text = Decimal.render n := by
  have hrender : text = decimal.render n ↔
      exists digits, text.toList = [] ++ digits ∧ Written 10 0 digits n := eq_render_iff
  rw [← render, hrender]
  simp only [List.nil_append, exists_eq_left']

theorem render_append_inj {rest tail : String} (hrest : Ends rest.toList)
    (htail : Ends tail.toList) (h : form.render n ++ rest = form.render m ++ tail) :
    n = m ∧ rest = tail := by
  have hlists := congrArg String.toList h
  rw [String.toList_append, String.toList_append, toList_render, toList_render,
    List.append_assoc, List.append_assoc] at hlists
  have hdigits := List.append_cancel_left hlists
  rcases (written_padLeft form.two_le_base form.least n).append_inj form.base_le
      (written_padLeft form.two_le_base form.least m) hrest htail hdigits with ⟨hnumbers, htails⟩
  exact ⟨hnumbers, String.toList_inj.mp htails⟩

theorem render_injective (form : Form) : Function.Injective form.render := by
  intro n m h
  exact (render_append_inj ends_empty ends_empty (congrArg (· ++ "") h)).1

end Form

end Chip8.Numeral
