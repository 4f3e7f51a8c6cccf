import Chip8.Numeral.Positional

/-!
# Hexadecimal text

Words and addresses are shown with `0x` in front, upper-case, and zero-padded to a
least number of digits; a number that needs more digits gets them.
-/

namespace Chip8.Numeral.Hex

def render (width n : Nat) : String :=
  String.ofList ('0' :: 'x' :: padLeft width ((digits 16 n).map symbol))

end Chip8.Numeral.Hex
