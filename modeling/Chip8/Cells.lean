/-!
# Numbered cells

Arrays of fixed length whose cells are addressed by bounded numbers, so that an access
cannot miss. The register file, the keypad and the blocks of the keystream are such.
-/

namespace Chip8.Cells

variable {α : Type} {n : Nat}

def put (cells : Vector α n) (i : Fin n) (a : α) : Vector α n :=
  cells.set i.val a i.isLt

theorem get_eq_getElem (cells : Vector α n) (i : Fin n) : cells.get i = cells[i.val] :=
  rfl

theorem get_put (cells : Vector α n) (i j : Fin n) (a : α) :
    (put cells i a).get j = if i = j then a else cells.get j := by
  simp only [put, get_eq_getElem, Vector.getElem_set, Fin.ext_iff]

end Chip8.Cells
