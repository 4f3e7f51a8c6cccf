import Chip8.Proofs.Cycle.Cases
import Chip8.Proofs.Instruction.Failures

/-!
# Faults and traps of a cycle

A cycle reports an error exactly if the fetched word meets a fault, with the value of
that fault, and it then leaves the machine as it was fetched. It traps in a single
case, a sprite without rows behind the end of memory. All other sums, products, indices
and slices that a cycle forms exist.
-/

namespace Chip8

def Error.IsFault : Error → Prop
  | .addressOutside _ | .pixelOutside _ | .stackFull _ | .stackEmpty | .noSuchKey _ => True
  | _ => False

namespace Machine

variable {m after : Machine} {word : UInt16} {cause : Error}

theorem Fault.isFault (h : m.Fault word cause) : cause.IsFault := by
  cases h <;> exact True.intro

/-!
## Errors
-/

theorem not_fault_of_visible (hfamily : Opcode.family word = 0xD)
    (hfit : m.index.toNat + (Opcode.low word).val ≤ 4096)
    (hvisible : ∀ i ∈ m.litIndices (Opcode.x word) (Opcode.y word) (Opcode.low word),
      i < 2048) : ¬ m.Fault word cause := by
  intro h
  cases h with
  | emptyReturn hother | fullCall hother | keyNumber hother | digitSpan hother
  | registerSpan hother =>
      rw [hfamily] at hother
      cases hother
  | spriteSpan _ _ hlong => exact absurd hfit (Nat.not_le_of_lt hlong)
  | spritePixel _ _ hleast =>
      exact absurd (hvisible _ hleast.1.1) (Nat.not_lt_of_le hleast.1.2)

theorem cycle_of_fault (hword : m.memory.word? m.pc = some word)
    (hfault : m.Fault word cause) :
    cycle m = .error (.error cause) (m.fetched word) := by
  rcases Instruction.exists_failure?_of_fault hfault with
    ⟨instruction, hspelled, hfailure⟩
  rw [cycle_of_known hword (Instruction.ofWord?_eq_some_iff.mpr hspelled), hfailure]
  rfl

theorem fault_of_cycle (h : cycle m = .error (.error cause) after) :
    exists word, m.memory.word? m.pc = some word ∧ m.Fault word cause ∧
      after = m.fetched word := by
  cases cycle_cases m with
  | outside _ hcycle | unknown _ _ _ hcycle | executed _ _ _ _ _ hcycle =>
      rw [h] at hcycle
      cases hcycle
  | failed word instruction failure hword hspelled hfailure hcycle =>
      rw [h] at hcycle
      cases hcycle
      exact ⟨word, hword, (Instruction.failure?_eq_error_iff hspelled).mp hfailure, rfl⟩

/-!
## Traps
-/

/-- The next cycle draws a sprite without rows from behind the end of memory. -/
def DrawsNothingBeyond (m : Machine) : Prop :=
  m.pc.toNat ≤ 4094 ∧
    exists word, m.memory.word? m.pc = some word ∧ Opcode.family word = 0xD ∧
      (Opcode.low word).val = 0 ∧ 4096 < m.index.toNat

theorem drawsNothingBeyond_of_cycle (h : cycle m = .error .trap after) :
    m.DrawsNothingBeyond := by
  cases cycle_cases m with
  | outside _ hcycle | unknown _ _ _ hcycle | executed _ _ _ _ _ hcycle =>
      rw [h] at hcycle
      cases hcycle
  | failed word instruction failure hword hspelled hfailure hcycle =>
      rw [h] at hcycle
      cases hcycle
      rcases Instruction.failure?_eq_trap_iff.mp hfailure with
        ⟨x, y, rows, rfl, hrows, hbeyond⟩
      rcases hspelled with ⟨hfamily, _, _, rfl⟩
      exact ⟨Memory.address_le_of_word? hword, word, hword, hfamily, hrows, hbeyond⟩

theorem cycle_of_drawsNothingBeyond (h : m.DrawsNothingBeyond) :
    exists after, cycle m = .error .trap after := by
  rcases h with ⟨_, word, hword, hfamily, hrows, hbeyond⟩
  have hknown : Instruction.ofWord? word =
      some (.draw (Opcode.x word) (Opcode.y word) (Opcode.low word)) :=
    Instruction.ofWord?_eq_some_iff.mpr ⟨hfamily, rfl, rfl, rfl⟩
  have htrap := Instruction.failure?_eq_trap_iff.mpr
    ⟨Opcode.x word, Opcode.y word, Opcode.low word, rfl, hrows, hbeyond⟩
  rw [cycle_of_known hword hknown, htrap]
  exact ⟨_, rfl⟩

theorem cycle_ends_of_not_drawsNothingBeyond (h : ¬ m.DrawsNothingBeyond) :
    (exists outcome after, cycle m = .ok outcome after) ∨
      exists cause after, cycle m = .error (.error cause) after := by
  cases hcycle : cycle m with
  | ok outcome after => exact Or.inl ⟨outcome, after, rfl⟩
  | error failure after =>
      cases failure with
      | error cause => exact Or.inr ⟨cause, after, rfl⟩
      | trap => exact absurd (drawsNothingBeyond_of_cycle hcycle) h

/-- The sums, products, indices and slices that a cycle at the word can form exist. -/
structure InRange (m : Machine) (word : UInt16) : Prop where
  fetch : m.pc.toNat + 1 < Memory.size
  next : m.pc.toNat + 2 < UInt16.size
  skip : m.pc.toNat + 4 < UInt16.size
  jumpOffset :
    (Opcode.address word).val + (m.registers.get offsetRegister).toNat < UInt16.size
  glyph : forall x, Font.base.toNat + Font.glyphSize.toNat * (m.registers.get x).toNat <
    UInt16.size
  carry : forall x, (m.registers.get x).toNat ≤ 255
  span : forall len, len ≤ 16 -> m.index.toNat + len < UInt64.size
  pixel : forall x y r column, r < 16 -> column < 8 ->
    Screen.index ((m.registers.get x).toNat + column) ((m.registers.get y).toNat + r) <
      UInt64.size
  slice : forall len, Memory.checkSpan m.index.toNat len = .ok () ->
    len ≠ 0 ∨ m.index.toNat ≤ 4096 ->
      exists content, m.memory.slice? m.index.toNat len = some content
  write : forall content : List UInt8,
    Memory.checkSpan m.index.toNat content.length = .ok () -> content ≠ [] ->
      exists written, m.memory.write? m.index.toNat content = some written
  plot : forall pixels plotted, m.screen.plot pixels = .ok plotted ->
    ∀ i ∈ pixels, i < Screen.size

theorem inRange_of_word? (hword : m.memory.word? m.pc = some word) : m.InRange word where
  fetch := Nat.lt_succ_of_le (Nat.succ_le_succ (Memory.address_le_of_word? hword))
  next := pc_add_lt (Memory.address_le_of_word? hword) (Nat.le_add_left 2 2)
  skip := pc_add_lt (Memory.address_le_of_word? hword) (Nat.le_refl 4)
  jumpOffset := by
    have hsum := jumpOffset_le (m := m) (Opcode.address word)
    rw [Address.toNat_toWord, UInt8.toNat_toUInt16] at hsum
    exact Nat.lt_of_le_of_lt hsum (by decide)
  glyph x := by
    have hbyte := (m.registers.get x).toNat_lt
    show 0 + 5 * _ < 65536
    lia
  carry x := Nat.le_of_lt_succ (m.registers.get x).toNat_lt
  span len hlen := by
    have hindex := m.index.toNat_lt
    show _ < 18446744073709551616
    lia
  pixel x y r column hr hcolumn := by
    have hx := (m.registers.get x).toNat_lt
    have hy := (m.registers.get y).toNat_lt
    show _ + 64 * _ < 18446744073709551616
    lia
  slice len hcheck hproper := by
    cases hslice : m.memory.slice? m.index.toNat len with
    | some content => exact ⟨content, rfl⟩
    | none =>
        rcases Memory.slice?_eq_none_of_checkSpan hcheck hslice with ⟨hempty, hbeyond⟩
        rcases hproper with hlen | hinside
        · exact absurd hempty hlen
        · exact absurd hinside (Nat.not_le_of_lt hbeyond)
  write content hcheck hcontent := by
    refine ⟨_, Bytes.write?_eq_some_iff.mpr ⟨?_, rfl⟩⟩
    rcases Memory.checkSpan_eq_ok_iff.mp hcheck with hempty | hfit
    · exact absurd (List.eq_nil_of_length_eq_zero hempty) hcontent
    · exact hfit
  plot pixels plotted hplot := (Screen.plot_eq_ok_iff.mp hplot).1

/-- A cycle traps exactly on a sprite without rows behind the end of memory. Otherwise it
ends or reports an error, and nothing it computes leaves its range. -/
theorem cycle_trap_iff (m : Machine) :
    ((exists after, cycle m = .error .trap after) ↔ m.DrawsNothingBeyond) ∧
    (¬ m.DrawsNothingBeyond ->
      (exists outcome after, cycle m = .ok outcome after) ∨
        exists cause after, cycle m = .error (.error cause) after) ∧
    (forall word, m.memory.word? m.pc = some word -> m.InRange word) := by
  refine ⟨⟨?_, cycle_of_drawsNothingBeyond⟩, cycle_ends_of_not_drawsNothingBeyond, ?_⟩
  · intro h
    rcases h with ⟨after, hcycle⟩
    exact drawsNothingBeyond_of_cycle hcycle
  · intro word hword
    exact inRange_of_word? hword

/-!
A machine at the lower right corner of the screen: its whole memory is the word that
draws its own byte, whose columns 0, 1 and 3 are still on the screen and whose column 7
is not.
-/

def cornerDrawing : Machine :=
  { powerOn with
    memory := Vector.replicate 4096 0xD1
    registers := #v[0, 60, 0, 0, 0, 0, 0, 0, 0, 0, 0, 0, 0, 31, 0, 0]
    drawn := true
    outbox := Outbox.single .awaitKey }

theorem word?_cornerDrawing :
    cornerDrawing.memory.word? cornerDrawing.pc = some 0xD1D1 := by
  have hinside : cornerDrawing.pc.toNat + 1 < 4096 := by decide
  rw [Memory.word?, dif_pos hinside]
  simp only [cornerDrawing, Vector.getElem_replicate]
  rfl

theorem isLeast_cornerDrawing :
    IsLeast {j | j ∈ cornerDrawing.litIndices 1 13 1 ∧ 2048 ≤ j} 2051 := by
  have hbyte : forall r, cornerDrawing.memory[cornerDrawing.index.toNat + r]? =
      if cornerDrawing.index.toNat + r < 4096 then some 0xD1 else none := by
    intro r
    exact Vector.getElem?_replicate
  constructor
  · exact ⟨⟨0, 7, 0xD1, by decide, by decide, hbyte 0, by decide, by decide⟩, by decide⟩
  · intro j hj
    rcases hj with ⟨⟨r, column, row, hr, hcolumn, hrow, hlit, rfl⟩, hbeyond⟩
    have hfirst : r = 0 := Nat.lt_one_iff.mp hr
    subst hfirst
    rw [hbyte] at hrow
    cases hrow
    revert hlit hbeyond
    revert column
    decide

theorem fault_cornerDrawing : cornerDrawing.Fault 0xD1D1 (.pixelOutside 2051) :=
  .spritePixel (by decide) (by decide) isLeast_cornerDrawing

/-- An error leaves the machine alone, except that the requests and the drawing of the
cycle before are forgotten and the fetched word is noted. -/
theorem cycle_error_leaves_machine (h : cycle m = .error (.error cause) after) :
    (exists word, m.memory.word? m.pc = some word ∧
      after = { m with drawn := false, opcode := word, outbox := Outbox.empty }) ∧
    cause.IsFault := by
  rcases fault_of_cycle h with ⟨word, hword, hfault, rfl⟩
  exact ⟨⟨word, hword, rfl⟩, hfault.isFault⟩

theorem cornerDrawing_left_by_error :
    cycle cornerDrawing =
      .error (.error (.pixelOutside 2051)) (cornerDrawing.fetched 0xD1D1) ∧
    (exists word, cornerDrawing.memory.word? cornerDrawing.pc = some word ∧
      cornerDrawing.fetched 0xD1D1 =
        { cornerDrawing with drawn := false, opcode := word, outbox := Outbox.empty }) ∧
    (Error.pixelOutside 2051).IsFault := by
  have hcycle := cycle_of_fault word?_cornerDrawing fault_cornerDrawing
  exact ⟨hcycle, cycle_error_leaves_machine hcycle⟩

theorem cycle_ends_of_not_fault (hword : m.memory.word? m.pc = some word)
    (hsafe : ¬ (Opcode.family word = 0xD ∧ (Opcode.low word).val = 0 ∧
      4096 < m.index.toNat))
    (hnone : forall cause, ¬ m.Fault word cause) :
    exists outcome after, cycle m = .ok outcome after := by
  have hnot : ¬ m.DrawsNothingBeyond := by
    intro hdraws
    rcases hdraws with ⟨_, fetched, hfetched, hconditions⟩
    rw [hword] at hfetched
    cases hfetched
    exact hsafe hconditions
  rcases cycle_ends_of_not_drawsNothingBeyond hnot with hends | herror
  · exact hends
  · rcases herror with ⟨cause, after, hcycle⟩
    rcases fault_of_cycle hcycle with ⟨fetched, hfetched, hfault, _⟩
    rw [hword] at hfetched
    cases hfetched
    exact absurd hfault (hnone cause)

/-- Inside memory a cycle fails exactly with the faults of its word, and ends exactly if
there are none. A sprite whose lit pixels are on the screen is drawn, wherever its dark
ones are. -/
theorem cycle_error_iff_fault (hword : m.memory.word? m.pc = some word)
    (hsafe : ¬ (Opcode.family word = 0xD ∧ (Opcode.low word).val = 0 ∧
      4096 < m.index.toNat)) :
    (forall cause, (exists after, cycle m = .error (.error cause) after) ↔
      m.Fault word cause) ∧
    ((exists outcome after, cycle m = .ok outcome after) ↔
      forall cause, ¬ m.Fault word cause) ∧
    (Opcode.family word = 0xD -> m.index.toNat + (Opcode.low word).val ≤ 4096 ->
      (∀ i ∈ m.litIndices (Opcode.x word) (Opcode.y word) (Opcode.low word), i < 2048) ->
        exists outcome after, cycle m = .ok outcome after) := by
  refine ⟨?_, ⟨?_, cycle_ends_of_not_fault hword hsafe⟩, ?_⟩
  · intro cause
    constructor
    · intro h
      rcases h with ⟨after, hcycle⟩
      rcases fault_of_cycle hcycle with ⟨fetched, hfetched, hfault, _⟩
      rw [hword] at hfetched
      cases hfetched
      exact hfault
    · intro hfault
      exact ⟨_, cycle_of_fault hword hfault⟩
  · intro h cause hfault
    rcases h with ⟨outcome, after, hcycle⟩
    rw [cycle_of_fault hword hfault] at hcycle
    cases hcycle
  · intro hfamily hfit hvisible
    apply cycle_ends_of_not_fault hword hsafe
    intro cause
    exact not_fault_of_visible hfamily hfit hvisible

theorem cornerDrawing_reports_pixel :
    cornerDrawing.memory.word? cornerDrawing.pc = some 0xD1D1 ∧
    ¬ (Opcode.family 0xD1D1 = 0xD ∧ (Opcode.low 0xD1D1).val = 0 ∧
      4096 < cornerDrawing.index.toNat) ∧
    exists after, cycle cornerDrawing = .error (.error (.pixelOutside 2051)) after := by
  have hsafe : ¬ (Opcode.family 0xD1D1 = 0xD ∧ (Opcode.low 0xD1D1).val = 0 ∧
      4096 < cornerDrawing.index.toNat) := by decide
  have hreported := (cycle_error_iff_fault word?_cornerDrawing hsafe).1 (.pixelOutside 2051)
  exact ⟨word?_cornerDrawing, hsafe, hreported.mpr fault_cornerDrawing⟩

end Machine

end Chip8
