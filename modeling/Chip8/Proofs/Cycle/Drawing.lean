import Chip8.Proofs.Cycle.Cases
import Chip8.Proofs.Registers.Reading
import Chip8.Proofs.Sprite.Coverage

/-!
# Drawing in one cycle

A cycle that draws flips the pixels that the lit bits of the sprite cover, each of them
once, and reports in the flag whether one of them was lit. It changes nothing else that
a program could see.
-/

namespace Chip8

namespace Machine

variable {m after : Machine} {word : UInt16} {x y rows : Fin 16} {outcome : Outcome}

/-!
## The machine behind a drawing
-/

theorem cycle_of_draw (hword : m.memory.word? m.pc = some word)
    (hspelled : (Instruction.draw x y rows).SpelledBy word) :
    m.cycle =
      Failure.guarded (m.drawFailure? x y rows) (m.fetched word) .executed
        (m.executed word (.draw x y rows)) :=
  cycle_of_known hword (Instruction.ofWord?_of_spelledBy hspelled)

theorem of_draw_ok (hword : m.memory.word? m.pc = some word)
    (hspelled : (Instruction.draw x y rows).SpelledBy word)
    (hcycle : m.cycle = .ok outcome after) :
    m.drawFailure? x y rows = none ∧ outcome = .executed ∧
      after = m.executed word (.draw x y rows) := by
  rw [cycle_of_draw hword hspelled] at hcycle
  cases hfailure : m.drawFailure? x y rows with
  | none =>
      rw [hfailure] at hcycle
      cases hcycle
      exact ⟨rfl, rfl, rfl⟩
  | some failure =>
      rw [hfailure] at hcycle
      cases hcycle

theorem screen_executed_draw :
    (m.executed word (.draw x y rows)).screen =
      (m.spritePixels x y rows).foldl Screen.flip m.screen :=
  Screen.flipAll_screen _

theorem registers_executed_draw :
    (m.executed word (.draw x y rows)).registers =
      m.registers.setFlag (m.screen.flipAll (m.spritePixels x y rows)).1 :=
  rfl

theorem get_flag_executed_draw :
    (m.executed word (.draw x y rows)).registers.get flagRegister =
      (m.screen.flipAll (m.spritePixels x y rows)).1.toUInt8 :=
  Registers.get_put_self _

/-!
## The drawing
-/

theorem hit_iff (h : m.drawFailure? x y rows = none) :
    (m.screen.flipAll (m.spritePixels x y rows)).1 = true ↔
      exists k, exists hk : k < 2048, m.Covers x y rows k ∧ m.screen[k] = 1 := by
  rw [Screen.flipAll_hit_iff (spritePixels_nodup m x y rows)]
  constructor
  · rintro ⟨k, hmember, hlit⟩
    have hcovers := (mem_spritePixels_iff_covers h).mp hmember
    have hk := lt_of_covers h hcovers
    exact ⟨k, hk, hcovers, (Screen.isLit_iff hk).mp hlit⟩
  · rintro ⟨k, hk, hcovers, hlit⟩
    exact ⟨k, (mem_spritePixels_iff_covers h).mpr hcovers, (Screen.isLit_iff hk).mpr hlit⟩

/-- The machine `after` is `m` with the sprite of `rows` rows at the index drawn at the
position in the two registers. -/
structure Drawn (m after : Machine) (x y rows : Fin 16) : Prop where
  covered : forall k, forall hk : k < 2048, m.Covers x y rows k ->
    after.screen[k] = m.screen[k] ^^^ 1
  uncovered : forall k, forall hk : k < 2048, ¬ m.Covers x y rows k ->
    after.screen[k] = m.screen[k]
  once : exists pixels : List Nat, pixels.Nodup ∧ (forall k, k ∈ pixels ↔ m.Covers x y rows k) ∧
    after.screen = pixels.foldl Screen.flip m.screen
  inside : forall k, m.Covers x y rows k -> k < 2048
  spills : forall r column byte, r < rows.val -> column < 8 ->
    m.memory[m.index.toNat + r]? = some byte -> byte.toNat.testBit (7 - column) = true ->
      m.Covers x y rows
        (Screen.index (((m.registers.get x).toNat + column) % 64)
          ((m.registers.get y).toNat + r + ((m.registers.get x).toNat + column) / 64))
  flag :
    (after.registers.get flagRegister = 1 ∧
      exists k, exists hk : k < 2048, m.Covers x y rows k ∧ m.screen[k] = 1) ∨
    (after.registers.get flagRegister = 0 ∧
      forall k, forall hk : k < 2048, m.Covers x y rows k -> m.screen[k] ≠ 1)
  drawn : after.drawn = true
  index : after.index = m.index
  memory : after.memory = m.memory
  registers : forall z, z ≠ flagRegister -> after.registers.get z = m.registers.get z

theorem drawn_executed (h : m.drawFailure? x y rows = none) :
    m.Drawn (m.executed word (.draw x y rows)) x y rows where
  covered k hk hcovers := by
    simp only [screen_executed_draw]
    rw [Screen.getElem_foldl_flip (spritePixels_nodup m x y rows) hk,
      if_pos ((mem_spritePixels_iff_covers h).mpr hcovers)]
  uncovered k hk hcovers := by
    simp only [screen_executed_draw]
    rw [Screen.getElem_foldl_flip (spritePixels_nodup m x y rows) hk,
      if_neg (mt (mem_spritePixels_iff_covers h).mp hcovers)]
  once := ⟨m.spritePixels x y rows, spritePixels_nodup m x y rows,
    fun _ => mem_spritePixels_iff_covers h, screen_executed_draw⟩
  inside _ := lt_of_covers h
  spills _ _ _ hr hcolumn hbyte hlit := covers_of_lit hr hcolumn hbyte hlit
  flag := by
    have hhit := hit_iff h
    rw [get_flag_executed_draw]
    cases hreport : (m.screen.flipAll (m.spritePixels x y rows)).1 with
    | true => exact Or.inl ⟨rfl, hhit.mp hreport⟩
    | false =>
        refine Or.inr ⟨rfl, fun k hk hcovers hlit => ?_⟩
        rw [hreport] at hhit
        exact Bool.false_ne_true (hhit.mpr ⟨k, hk, hcovers, hlit⟩)
  drawn := rfl
  index := rfl
  memory := rfl
  registers _ hz := by
    rw [registers_executed_draw, Registers.get_setFlag_of_ne hz]

/-- A cycle that fetches a word of family D and neither reports an error nor traps draws
the sprite: it flips each pixel that a lit bit covers, once, and no other. -/
theorem draws_covered_pixels (hword : m.memory.word? m.pc = some word)
    (hfamily : Opcode.family word = 0xD) (hcycle : m.cycle = .ok outcome after) :
    outcome = .executed ∧
      m.Drawn after (Opcode.x word) (Opcode.y word) (Opcode.low word) := by
  rcases of_draw_ok hword ⟨hfamily, rfl, rfl, rfl⟩ hcycle with ⟨hnone, houtcome, rfl⟩
  exact ⟨houtcome, drawn_executed hnone⟩

/-- Draws fifteen rows across the right edge, from a position that the flag takes part in.
The last column of the first row meets a lit pixel on the next row of the screen. -/
def edgeDrawing : Machine :=
  { powerOn with
    memory := Vector.replicate 4096 0xDF
    registers := #v[0, 0, 0, 0, 0, 0, 0, 0, 0, 0, 0, 0, 0, 3, 0, 60]
    screen := Screen.blank.flip 259 }

theorem edgeDrawing_draws_covered_pixels :
    exists after, edgeDrawing.memory.word? edgeDrawing.pc = some 0xDFDF ∧
      Opcode.family 0xDFDF = 0xD ∧ edgeDrawing.cycle = .ok .executed after ∧
      after.screen[259] = 0 ∧ after.registers.get flagRegister = 1 := by
  have hword : edgeDrawing.memory.word? edgeDrawing.pc = some 0xDFDF := by decide +kernel
  have hfamily : Opcode.family 0xDFDF = 0xD := by decide
  have hnone : edgeDrawing.drawFailure? (Opcode.x 0xDFDF) (Opcode.y 0xDFDF)
      (Opcode.low 0xDFDF) = none := by
    decide +kernel
  have hcycle := cycle_of_draw hword ⟨hfamily, rfl, rfl, rfl⟩
  rw [hnone] at hcycle
  have hdrawn := (draws_covered_pixels hword hfamily hcycle).2
  have hbyte : edgeDrawing.memory[edgeDrawing.index.toNat + 0]? = some 0xDF := by
    decide +kernel
  have hcovers := hdrawn.spills 0 7 0xDF (by decide) (by decide) hbyte (by decide)
  have hlit : edgeDrawing.screen[259] = 1 := by decide +kernel
  refine ⟨_, hword, hfamily, hcycle, ?_, ?_⟩
  · have hflipped := hdrawn.covered 259 (by decide) hcovers
    rw [hlit] at hflipped
    exact hflipped
  · rcases hdrawn.flag with ⟨hflag, _⟩ | ⟨_, hdark⟩
    · exact hflag
    · exact absurd hlit (hdark 259 (by decide) hcovers)

end Machine

end Chip8
