import Chip8.Error

/-!
# The screen

64 columns by 32 rows of pixels, stored row by row with a byte for each: one for a lit
pixel and zero for a dark one. Drawing flips pixels; it addresses them by their flat
index, so a column past the right edge is one at the start of the next row. The picture
of a screen is text, a line for each row.
-/

namespace Chip8

abbrev Screen := Vector UInt8 2048

namespace Screen

def width : Nat := 64

def height : Nat := 32

def size : Nat := width * height

def index (x y : Nat) : Nat :=
  x + 64 * y

theorem index_lt {x y : Nat} (hx : x < 64) (hy : y < 32) : index x y < 2048 := by
  unfold index
  lia

def blank : Screen :=
  Vector.replicate 2048 0

def pixel? (screen : Screen) (x y : Nat) : Option UInt8 :=
  if h : x < 64 ∧ y < 32 then some (screen.get ⟨index x y, index_lt h.1 h.2⟩) else none

def isLit (screen : Screen) (i : Nat) : Bool :=
  screen[i]?.getD 0 == 1

/-- Flips the last bit of the pixel at a flat index; beyond the screen nothing changes. -/
def flip (screen : Screen) (i : Nat) : Screen :=
  if h : i < 2048 then screen.set i (screen[i] ^^^ 1) else screen

theorem pixel?_eq_none_iff {screen : Screen} {x y : Nat} :
    screen.pixel? x y = none ↔ 64 ≤ x ∨ 32 ≤ y := by
  unfold pixel?
  split
  · simp only [reduceCtorEq, false_iff]
    lia
  · simp only [true_iff]
    lia

theorem getElem_flip (screen : Screen) (i k : Nat) (hk : k < 2048) :
    (screen.flip i)[k] = if i = k then screen[k] ^^^ 1 else screen[k] := by
  unfold flip
  by_cases hi : i < 2048
  · rw [dif_pos hi, Vector.getElem_set]
    by_cases heq : i = k
    · subst heq
      simp
    · simp [heq]
  · have hne : i ≠ k := by lia
    simp [hi, hne]

def flipAll (screen : Screen) (pixels : List Nat) : Bool × Screen :=
  pixels.foldl (fun (hit, shown) i => (hit || shown.isLit i, shown.flip i)) (false, screen)

/-- Flips the pixels if all of them are on the screen, and otherwise names the first
that is not. -/
def plot (screen : Screen) (pixels : List Nat) : Except Error (Bool × Screen) :=
  match pixels.find? fun i => decide (size ≤ i) with
  | some i => .error (.pixelOutside i)
  | none => .ok (screen.flipAll pixels)

theorem plot_eq_ok_iff {screen : Screen} {pixels : List Nat} {result : Bool × Screen} :
    screen.plot pixels = .ok result ↔
      (∀ i ∈ pixels, i < 2048) ∧ screen.flipAll pixels = result := by
  unfold plot size width height
  split
  · rename_i i hfound
    simp only [reduceCtorEq, false_iff, not_and]
    intro hall
    have hlarge := List.find?_some hfound
    have hsmall := hall i (List.mem_of_find?_eq_some hfound)
    simp only [decide_eq_true_eq] at hlarge
    lia
  · rename_i hnone
    have hall : ∀ i ∈ pixels, i < 2048 := by
      intro i hi
      have hnot := List.find?_eq_none.mp hnone i hi
      simp only [decide_eq_true_eq] at hnot
      lia
    exact ⟨fun h => ⟨hall, Except.ok.inj h⟩, fun h => congrArg Except.ok h.2⟩

/-! ## The picture -/

def cell (pixel : UInt8) : Char :=
  if pixel = 0 then '░' else '█'

def stretches (length : Nat) : List UInt8 → List (List UInt8)
  | [] => []
  | first :: rest =>
      (first :: rest.take (length - 1)) :: stretches length (rest.drop (length - 1))
  termination_by pixels => pixels.length
  decreasing_by
    rw [List.length_drop, List.length_cons]
    exact Nat.lt_succ_of_le (Nat.sub_le rest.length (length - 1))

def rows (screen : Screen) : List (List UInt8) :=
  stretches width screen.toList

def picture (screen : Screen) : String :=
  String.ofList (screen.rows.flatMap fun row => row.map cell ++ ['\n'])

end Screen

end Chip8
