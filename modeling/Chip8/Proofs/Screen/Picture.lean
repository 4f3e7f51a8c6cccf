import Chip8.Proofs.Host.Reachable
import Chip8.Screen

/-!
# The picture of a screen

The picture has a line for each row and a character for each pixel, in the places that the
flat index gives them. From the picture of a screen whose pixels are lit or dark the screen
can be read back, so different screens have different pictures.
-/

namespace Chip8

namespace Screen

variable {screen other : Screen} {length count x y : Nat} {pixels : List UInt8}

/-!
## Stretches

Every stretch but the last has the full length, so the place of a pixel in its stretch and the
number of the stretch give its place in the whole.
-/

theorem stretches_of_ne_nil (hlength : 0 < length) (h : pixels ≠ []) :
    stretches length pixels =
      pixels.take length :: stretches length (pixels.drop length) := by
  cases pixels with
  | nil => exact absurd rfl h
  | cons first rest =>
      rcases Nat.exists_eq_succ_of_ne_zero (Nat.ne_of_gt hlength) with ⟨behind, rfl⟩
      rw [stretches]
      rfl

theorem flatten_stretches (length : Nat) (pixels : List UInt8) :
    (stretches length pixels).flatten = pixels := by
  fun_induction stretches length pixels with
  | case1 => rfl
  | case2 first rest ih =>
      rw [List.flatten_cons, ih, List.cons_append, List.take_append_drop]

theorem getElem?_stretches (hx : x < length) (y : Nat) (pixels : List UInt8) :
    ((stretches length pixels)[y]?).bind (fun row => row[x]?) = pixels[length * y + x]? := by
  induction y generalizing pixels with
  | zero =>
      by_cases h : pixels = []
      · subst h
        simp [stretches]
      · rw [stretches_of_ne_nil (Nat.zero_lt_of_lt hx) h]
        simp [hx]
  | succ y ih =>
      by_cases h : pixels = []
      · subst h
        simp [stretches]
      · rw [stretches_of_ne_nil (Nat.zero_lt_of_lt hx) h, List.getElem?_cons_succ, ih,
          List.getElem?_drop]
        congr 1
        lia

theorem length_stretches (hlength : 0 < length) (h : pixels.length = length * count) :
    (stretches length pixels).length = count ∧
      ∀ row ∈ stretches length pixels, row.length = length := by
  induction count generalizing pixels with
  | zero =>
      have hempty : pixels = [] := List.eq_nil_of_length_eq_zero h
      subst hempty
      simp [stretches]
  | succ count ih =>
      have hne : pixels ≠ [] := by
        rintro rfl
        rw [List.length_nil, Nat.mul_succ] at h
        lia
      have hrest : (pixels.drop length).length = length * count := by
        rw [List.length_drop, h, Nat.mul_succ, Nat.add_sub_cancel]
      have hfirst : (pixels.take length).length = length := by
        rw [List.length_take, h, Nat.mul_succ]
        exact Nat.min_eq_left (Nat.le_add_left length _)
      rcases ih hrest with ⟨hcount, hrows⟩
      rw [stretches_of_ne_nil hlength hne, List.length_cons, hcount]
      exact ⟨rfl, List.forall_mem_cons.mpr ⟨hfirst, hrows⟩⟩

/-!
## Rows
-/

theorem length_rows (screen : Screen) :
    screen.rows.length = 32 ∧ ∀ row ∈ screen.rows, row.length = 64 := by
  have hsize : screen.toList.length = width * 32 := Vector.length_toList
  exact length_stretches (by decide) hsize

theorem flatten_rows (screen : Screen) : screen.rows.flatten = screen.toList :=
  flatten_stretches width screen.toList

theorem pixel?_of_lt (hx : x < 64) (y : Nat) :
    screen.pixel? x y = screen.toList[64 * y + x]? := by
  rw [Vector.getElem?_toList]
  by_cases hy : y < 32
  · have hplace : index x y < 2048 := index_lt hx hy
    rw [pixel?, dif_pos ⟨hx, hy⟩, Nat.add_comm, ← index, Vector.getElem?_eq_getElem hplace]
    rfl
  · rw [pixel?_eq_none_iff.mpr (Or.inr (Nat.le_of_not_lt hy)), Vector.getElem?_eq_none]
    lia

theorem getElem?_rows (screen : Screen) (x y : Nat) :
    (screen.rows[y]?).bind (fun row => row[x]?) = screen.pixel? x y := by
  by_cases hx : x < 64
  · rw [pixel?_of_lt hx]
    exact getElem?_stretches hx y screen.toList
  · have hbeyond : 64 ≤ x := Nat.le_of_not_lt hx
    rw [pixel?_eq_none_iff.mpr (Or.inl hbeyond)]
    cases hrow : screen.rows[y]? with
    | none => rfl
    | some row =>
        have hlength := screen.length_rows.2 row (List.mem_of_getElem? hrow)
        exact List.getElem?_eq_none (by rw [hlength]; exact hbeyond)

/-!
## Text

A line never contains a newline, so the lines of the picture are found again by splitting it
at the newlines.
-/

def charAt? (text : String) (x y : Nat) : Option Char :=
  ((text.toList.splitOn '\n')[y]?).bind fun cells => cells[x]?

def lines (screen : Screen) : List (List Char) :=
  screen.rows.map fun row => row.map cell

theorem cell_eq_or (pixel : UInt8) : cell pixel = '░' ∨ cell pixel = '█' := by
  unfold cell
  split
  · exact Or.inl rfl
  · exact Or.inr rfl

theorem cell_eq_lit_iff {pixel : UInt8} : cell pixel = '█' ↔ pixel ≠ 0 := by
  unfold cell
  split
  · rename_i hdark
    exact iff_of_false (by decide) (not_not_intro hdark)
  · rename_i hlit
    exact iff_of_true rfl hlit

theorem newline_not_mem (row : List UInt8) : '\n' ∉ row.map cell := by
  rw [List.mem_map]
  rintro ⟨pixel, _, hcell⟩
  rcases cell_eq_or pixel with hdark | hlit
  · rw [hdark] at hcell
    cases hcell
  · rw [hlit] at hcell
    cases hcell

theorem toList_picture (screen : Screen) :
    screen.picture.toList = screen.lines.flatMap fun line => line ++ ['\n'] := by
  rw [picture, String.toList_ofList, lines, List.flatMap_map]

theorem splitOn_picture (screen : Screen) :
    screen.picture.toList.splitOn '\n' = screen.lines ++ [[]] := by
  rw [toList_picture, lines]
  induction screen.rows with
  | nil => rfl
  | cons row rest ih =>
      rw [List.map_cons, List.flatMap_cons, List.append_assoc, List.singleton_append,
        List.splitOn_append_cons_self_of_not_mem (newline_not_mem row), ih]
      rfl

theorem charAt?_picture (screen : Screen) (x y : Nat) :
    charAt? screen.picture x y = (screen.pixel? x y).map cell := by
  rw [charAt?, splitOn_picture, ← getElem?_rows]
  rcases Nat.lt_or_ge y screen.lines.length with hy | hbeyond
  · rw [List.getElem?_append_left hy, lines, List.getElem?_map]
    cases screen.rows[y]? with
    | none => rfl
    | some row => exact List.getElem?_map
  · have hrow : screen.rows[y]? = none := by
      rw [lines, List.length_map] at hbeyond
      exact List.getElem?_eq_none hbeyond
    rw [List.getElem?_append_right hbeyond, hrow]
    -- The last newline begins one more line, with no character in it.
    cases y - screen.lines.length with
    | zero => rfl
    | succ further => rfl

/-!
## Reading a picture
-/

def pixelOf? : Char → Option UInt8
  | '░' => some 0
  | '█' => some 1
  | _ => none

/-- The screen that a text shows, if it has a character for each pixel. Other characters are
passed over. -/
def ofPicture? (text : String) : Option Screen :=
  let pixels := text.toList.filterMap pixelOf?
  if h : pixels.length = 2048 then some ⟨pixels.toArray, h⟩ else none

theorem filterMap_pixelOf? {row : List UInt8} (h : ∀ pixel ∈ row, pixel = 0 ∨ pixel = 1) :
    (row.map cell ++ ['\n']).filterMap pixelOf? = row := by
  induction row with
  | nil => rfl
  | cons first rest ih =>
      rcases List.forall_mem_cons.mp h with ⟨hfirst, hrest⟩
      have hshown : pixelOf? (cell first) = some first := by
        rcases hfirst with rfl | rfl
        · rfl
        · rfl
      rw [List.map_cons, List.cons_append, List.filterMap_cons_some hshown, ih hrest]

theorem mem_toList_of_isBinary (h : IsBinary screen) {pixel : UInt8}
    (hpixel : pixel ∈ screen.toList) : pixel = 0 ∨ pixel = 1 := by
  rcases Vector.getElem_of_mem (Vector.mem_toList_iff.mp hpixel) with ⟨i, hi, rfl⟩
  exact h i hi

theorem filterMap_toList_picture (h : IsBinary screen) :
    screen.picture.toList.filterMap pixelOf? = screen.toList := by
  have hrow : ∀ row ∈ screen.rows,
      (row.map cell ++ ['\n']).filterMap pixelOf? = row := by
    intro row hrow
    apply filterMap_pixelOf?
    intro pixel hpixel
    apply mem_toList_of_isBinary h
    rw [← flatten_rows]
    exact List.mem_flatten.mpr ⟨row, hrow, hpixel⟩
  calc
    screen.picture.toList.filterMap pixelOf?
      = screen.rows.flatMap fun row => (row.map cell ++ ['\n']).filterMap pixelOf? := by
        rw [picture, String.toList_ofList, List.filterMap_flatMap]
    _ = screen.rows.flatMap id := List.flatMap_congr hrow
    _ = screen.toList := by rw [List.flatMap_id, flatten_rows]

theorem ofPicture?_picture (h : IsBinary screen) :
    ofPicture? screen.picture = some screen := by
  have hread := filterMap_toList_picture h
  have hsize : screen.toList.length = 2048 := Vector.length_toList
  simp only [ofPicture?, hread, hsize, dite_true, Vector.toArray_toList]

theorem eq_of_picture_eq (h : IsBinary screen) (hother : IsBinary other)
    (hsame : screen.picture = other.picture) : screen = other := by
  have hread := ofPicture?_picture h
  rw [hsame, ofPicture?_picture hother] at hread
  exact (Option.some.inj hread).symm

/-!
## Faithfulness
-/

theorem lines_of_cells (screen : Screen) :
    screen.lines.length = 32 ∧
      ∀ line ∈ screen.lines, line.length = 64 ∧ ∀ c ∈ line, c = '░' ∨ c = '█' := by
  refine ⟨List.length_map _ |>.trans screen.length_rows.1, ?_⟩
  intro line hline
  rcases List.mem_map.mp hline with ⟨row, hrow, rfl⟩
  refine ⟨List.length_map _ |>.trans (screen.length_rows.2 row hrow), ?_⟩
  intro c hc
  rcases List.mem_map.mp hc with ⟨pixel, _, rfl⟩
  exact cell_eq_or pixel

theorem charAt?_picture_lit_iff :
    charAt? screen.picture x y = some '█' ↔
      exists pixel, screen.pixel? x y = some pixel ∧ pixel ≠ 0 := by
  rw [charAt?_picture, Option.map_eq_some_iff]
  exact exists_congr fun pixel => and_congr_right fun _ => cell_eq_lit_iff

/-- The picture of every screen, whatever bytes its pixels are, has 32 lines of 64 cells, and a
cell is lit where the pixel at its column and row is. As long as pixels are zero or one, the
picture tells everything: the screen can be read back from it, no other screen has the same
picture, and two machines that show the same picture agree in every pixel. -/
theorem picture_faithful (screen : Screen) :
    (exists lines : List (List Char),
        screen.picture.toList = (lines.flatMap fun line => line ++ ['\n']) ∧
        lines.length = 32 ∧
        ∀ line ∈ lines, line.length = 64 ∧ ∀ c ∈ line, c = '░' ∨ c = '█') ∧
      (forall x y, x < 64 -> y < 32 ->
        (charAt? screen.picture x y = some '█' ↔
          exists pixel, screen.pixel? x y = some pixel ∧ pixel ≠ 0)) ∧
      (forall x y, screen.pixel? x y = none ↔ 64 ≤ x ∨ 32 ≤ y) ∧
      (screen.IsBinary -> ofPicture? screen.picture = some screen) ∧
      (forall other : Screen, screen.IsBinary -> other.IsBinary ->
        screen.picture = other.picture -> screen = other) ∧
      forall m other : Machine, m.screen.IsBinary -> other.screen.IsBinary ->
        m.screen.picture = other.screen.picture ->
        forall x y, m.screen.pixel? x y = other.screen.pixel? x y := by
  refine ⟨⟨screen.lines, screen.toList_picture, screen.lines_of_cells⟩,
    fun x y _ _ => charAt?_picture_lit_iff, fun x y => pixel?_eq_none_iff,
    ofPicture?_picture, fun other => eq_of_picture_eq, ?_⟩
  intro m other hm hother hsame x y
  rw [eq_of_picture_eq hm hother hsame]

theorem last_pixel_faithful :
    let screen := blank.flip 2047
    let restored : Machine := { Machine.powerOn with screen := screen.flip 2047 }
    charAt? screen.picture 63 31 = some '█' ∧ ofPicture? screen.picture = some screen ∧
      screen.picture ≠ blank.picture ∧
      forall x y, restored.screen.pixel? x y = Machine.powerOn.screen.pixel? x y := by
  intro screen restored
  have hbinary : screen.IsBinary := isBinary_blank.flip 2047
  rcases picture_faithful screen with ⟨_, hcell, _, hread, hinjective, hmachines⟩
  have hlast : screen.pixel? 63 31 = some 1 := by decide +kernel
  have hback : restored.screen = Machine.powerOn.screen := flip_flip blank 2047
  refine ⟨(hcell 63 31 (by decide) (by decide)).mpr ⟨1, hlast, by decide⟩, hread hbinary, ?_,
    hmachines restored Machine.powerOn (hbinary.flip 2047) isBinary_blank
      (congrArg picture hback)⟩
  intro hsame
  rw [hinjective blank hbinary isBinary_blank hsame] at hlast
  revert hlast
  decide +kernel

end Screen

end Chip8
