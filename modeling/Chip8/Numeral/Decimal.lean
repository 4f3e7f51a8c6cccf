import Chip8.Numeral.Positional

/-!
# Decimal text

How counts are written, and how the numbers on the command line are read: an optional
single plus sign, then ASCII digits and nothing else. Leading zeros are allowed, so a
number has many texts; the written one has neither sign nor leading zeros.
-/

namespace Chip8.Numeral.Decimal

def render (n : Nat) : String :=
  String.ofList ((digits 10 n).map symbol)

def digit? (c : Char) : Option Nat :=
  if '0' ≤ c ∧ c ≤ '9' then some (c.toNat - '0'.toNat) else none

def dropPlus : List Char → List Char
  | '+' :: rest => rest
  | text => text

/-- Reads an optional plus sign and at least one digit. -/
def read? (text : String) : Option Nat :=
  match dropPlus text.toList with
  | [] => none
  | c :: rest => ((c :: rest).mapM digit?).map (ofDigits 10)

def readBits? (width : Nat) (text : String) : Option Nat :=
  (read? text).filter (· < Nat.pow 2 width)

end Chip8.Numeral.Decimal
