/-!
# Positional numerals

The digits of a natural number in a base, most significant first and without leading
zeros, and the number that a list of digits stands for. The main statement is that the
second undoes the first (`ofDigits_digits`), so a number is determined by its digits.
-/

namespace Chip8.Numeral

def digits (base n : Nat) : List Nat :=
  if _ : n < base ∨ base < 2 then [n]
  else digits base (n / base) ++ [n % base]
termination_by n
decreasing_by exact Nat.div_lt_self (by omega) (by omega)

def ofDigits (base : Nat) (ds : List Nat) : Nat :=
  ds.foldl (fun acc d => base * acc + d) 0

def symbol (digit : Nat) : Char :=
  ['0', '1', '2', '3', '4', '5', '6', '7', '8', '9', 'A', 'B', 'C', 'D', 'E', 'F'].getD digit '?'

def padLeft (width : Nat) (text : List Char) : List Char :=
  List.replicate (width - text.length) '0' ++ text

theorem ofDigits_append_singleton (base : Nat) (ds : List Nat) (d : Nat) :
    ofDigits base (ds ++ [d]) = base * ofDigits base ds + d := by
  simp [ofDigits, List.foldl_append]

theorem ofDigits_digits (base n : Nat) : ofDigits base (digits base n) = n := by
  induction n using digits.induct base with
  | case1 n h => rw [digits, dif_pos h]; simp [ofDigits]
  | case2 n h ih =>
      rw [digits, dif_neg h, ofDigits_append_singleton, ih]
      exact Nat.div_add_mod n base

end Chip8.Numeral
