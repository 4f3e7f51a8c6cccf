import Chip8.Proofs.Cycle.Drawing
import Chip8.Proofs.Host.Loading

/-!
# Drawing again

A sprite is drawn by exclusive or. As long as no draw takes its position from the flag, a
second draw of a sprite undoes the first, and two draws can be made in either order. What
is on the screen decides nothing but the flag, so it does not decide whether a draw fails.
-/

namespace Chip8

namespace Machine

variable {m other after : Machine} {word p q : UInt16} {x y rows x' y' rows' : Fin 16}

def cycleAt (address : UInt16) : MachineM Outcome := do
  setPc address
  cycle

def DrawsAt (m : Machine) (address : UInt16) (x y rows : Fin 16) : Prop :=
  exists word, m.memory.word? address = some word ∧
    (Instruction.draw x y rows).SpelledBy word

/-!
## What a draw reads
-/

structure SameSprite (m other : Machine) (x y : Register) : Prop where
  memory : other.memory = m.memory
  index : other.index = m.index
  column : other.registers.get x = m.registers.get x
  row : other.registers.get y = m.registers.get y

theorem SameSprite.spritePixels (h : m.SameSprite other x y) :
    other.spritePixels x y rows = m.spritePixels x y rows := by
  unfold Machine.spritePixels bytesAtIndex
  rw [h.memory, h.index, h.column, h.row]

theorem SameSprite.drawFailure? (h : m.SameSprite other x y) :
    other.drawFailure? x y rows = m.drawFailure? x y rows := by
  unfold Machine.drawFailure? spanFailure?
  rw [h.spritePixels, h.index]

theorem SameSprite.drawsAt (h : m.SameSprite other x y) (hdraws : m.DrawsAt p x y rows) :
    other.DrawsAt p x y rows := by
  unfold DrawsAt
  rw [h.memory]
  exact hdraws

theorem SameSprite.covers_iff {k : Nat} (h : m.SameSprite other x y) :
    other.Covers x y rows k ↔ m.Covers x y rows k := by
  rw [← mem_litIndices_iff, ← mem_litIndices_iff]
  unfold litIndices
  rw [h.memory, h.index, h.column, h.row]

theorem sameSprite_executed_draw (hx : x ≠ flagRegister) (hy : y ≠ flagRegister) :
    m.SameSprite (executed { m with pc := p } word (.draw x' y' rows')) x y where
  memory := rfl
  index := rfl
  column := Registers.get_setFlag_of_ne hx
  row := Registers.get_setFlag_of_ne hy

/-!
## A draw at an address
-/

theorem cycleAt_eq (h : m.DrawsAt p x y rows) :
    exists word, cycleAt p m =
      Failure.guarded (m.drawFailure? x y rows) (fetched { m with pc := p } word) .executed
        (executed { m with pc := p } word (.draw x y rows)) := by
  rcases h with ⟨word, hword, hspelled⟩
  exact ⟨word, cycle_of_draw (m := { m with pc := p }) hword hspelled⟩

theorem cycleAt_of_drawable (h : m.DrawsAt p x y rows)
    (hnone : m.drawFailure? x y rows = none) :
    exists word, cycleAt p m =
      .ok .executed (executed { m with pc := p } word (.draw x y rows)) := by
  rcases cycleAt_eq h with ⟨word, hcycle⟩
  rw [hnone] at hcycle
  exact ⟨word, hcycle⟩

theorem of_cycleAt_ok (h : m.DrawsAt p x y rows)
    (hcycle : cycleAt p m = .ok .executed after) :
    m.drawFailure? x y rows = none ∧
      exists word, after = executed { m with pc := p } word (.draw x y rows) := by
  rcases h with ⟨word, hword, hspelled⟩
  rcases of_draw_ok (m := { m with pc := p }) hword hspelled hcycle with ⟨hnone, _, hafter⟩
  exact ⟨hnone, word, hafter⟩

theorem cycleAt_error_iff (h : m.DrawsAt p x y rows) {failure : Failure} :
    (exists after, cycleAt p m = .error failure after) ↔
      m.drawFailure? x y rows = some failure := by
  rcases cycleAt_eq h with ⟨word, hcycle⟩
  rw [hcycle]
  cases m.drawFailure? x y rows with
  | none =>
      constructor
      · rintro ⟨after, hfails⟩
        cases hfails
      · intro hfails
        cases hfails
  | some met =>
      constructor
      · rintro ⟨after, hfails⟩
        cases hfails
        rfl
      · intro hfails
        cases hfails
        exact ⟨_, rfl⟩

/-!
## Two draws
-/

theorem flag_executed_draw_iff (h : m.drawFailure? x y rows = none) :
    (m.executed word (.draw x y rows)).registers.get flagRegister = 1 ↔
      exists k, exists hk : k < 2048, m.Covers x y rows k ∧ m.screen[k] = 1 := by
  rw [← hit_iff h, get_flag_executed_draw]
  cases (m.screen.flipAll (m.spritePixels x y rows)).1 with
  | true => exact ⟨fun _ => rfl, fun _ => rfl⟩
  | false =>
      constructor
      · intro hflag
        cases hflag
      · intro hhit
        cases hhit

theorem draw_behind (hsame : m.SameSprite other x y) (hdraws : m.DrawsAt p x y rows)
    (hnone : m.drawFailure? x y rows = none) :
    exists word, cycleAt p other =
        .ok .executed (executed { other with pc := p } word (.draw x y rows)) ∧
      (executed { other with pc := p } word (.draw x y rows)).screen =
        (m.spritePixels x y rows).foldl Screen.flip other.screen := by
  rcases cycleAt_of_drawable (hsame.drawsAt hdraws) (hsame.drawFailure?.trans hnone) with
    ⟨word, hcycle⟩
  refine ⟨word, hcycle, ?_⟩
  rw [← hsame.spritePixels]
  exact screen_executed_draw

theorem draw_twice (hdraws : m.DrawsAt p x y rows) (hx : x ≠ flagRegister)
    (hy : y ≠ flagRegister) (hfirst : cycleAt p m = .ok .executed after) :
    exists last, cycleAt p after = .ok .executed last ∧ last.screen = m.screen ∧
      (last.registers.get flagRegister = 1 ↔
        exists k, exists hk : k < 2048, m.Covers x y rows k ∧ m.screen[k] = 0) := by
  rcases of_cycleAt_ok hdraws hfirst with ⟨hnone, word, rfl⟩
  have hsame : m.SameSprite (executed { m with pc := p } word (.draw x y rows)) x y :=
    sameSprite_executed_draw hx hy
  rcases draw_behind hsame hdraws hnone with ⟨again, hcycle, hscreen⟩
  have hshown : (executed { m with pc := p } word (.draw x y rows)).screen =
      (m.spritePixels x y rows).foldl Screen.flip m.screen :=
    screen_executed_draw
  refine ⟨_, hcycle, ?_, ?_⟩
  · rw [hscreen, hshown]
    exact Screen.foldl_flip_twice _ _
  · generalize executed { m with pc := p } word (.draw x y rows) = first at hsame hshown
    have hready : ({ first with pc := p } : Machine).drawFailure? x y rows = none :=
      hsame.drawFailure?.trans hnone
    rw [flag_executed_draw_iff hready]
    refine exists_congr fun k => exists_congr fun hk => ?_
    have hcovers : ({ first with pc := p } : Machine).Covers x y rows k ↔
        m.Covers x y rows k :=
      SameSprite.covers_iff ⟨hsame.memory, hsame.index, hsame.column, hsame.row⟩
    rw [hcovers]
    refine and_congr_right fun hcovered => ?_
    -- The first draw flipped every pixel that the second one meets.
    show first.screen[k] = 1 ↔ m.screen[k] = 0
    simp only [hshown]
    rw [Screen.getElem_foldl_flip (spritePixels_nodup m x y rows) hk,
      if_pos ((mem_spritePixels_iff_covers hnone).mpr hcovered)]
    exact Screen.byte_flip_eq_one_iff

theorem exists_dark_iff_of_blank (hnone : m.drawFailure? x y rows = none)
    (hblank : m.screen = Screen.blank) :
    (exists k, exists hk : k < 2048, m.Covers x y rows k ∧ m.screen[k] = 0) ↔
      exists r byte, r < rows.val ∧ m.memory[m.index.toNat + r]? = some byte ∧ byte ≠ 0 := by
  rw [← exists_covers_iff]
  constructor
  · rintro ⟨k, _, hcovers, _⟩
    exact ⟨k, hcovers⟩
  · rintro ⟨k, hcovers⟩
    refine ⟨k, lt_of_covers hnone hcovers, hcovers, ?_⟩
    simp only [hblank]
    exact Vector.getElem_replicate _

theorem draws_commute {afterP afterQ : Machine} (hp : m.DrawsAt p x y rows)
    (hq : m.DrawsAt q x' y' rows') (hx : x ≠ flagRegister) (hy : y ≠ flagRegister)
    (hx' : x' ≠ flagRegister) (hy' : y' ≠ flagRegister)
    (hfirst : cycleAt p m = .ok .executed afterP)
    (hsecond : cycleAt q m = .ok .executed afterQ) :
    exists last last', cycleAt q afterP = .ok .executed last ∧
      cycleAt p afterQ = .ok .executed last' ∧ last.screen = last'.screen := by
  rcases of_cycleAt_ok hp hfirst with ⟨hnone, word, rfl⟩
  rcases of_cycleAt_ok hq hsecond with ⟨hnone', word', rfl⟩
  rcases draw_behind (sameSprite_executed_draw hx' hy') hq hnone' with
    ⟨again, hcycle, hscreen⟩
  rcases draw_behind (sameSprite_executed_draw hx hy) hp hnone with
    ⟨again', hcycle', hscreen'⟩
  refine ⟨_, _, hcycle, hcycle', ?_⟩
  rw [hscreen, hscreen', screen_executed_draw, screen_executed_draw]
  exact Screen.foldl_flip_comm _ _ _

/-- If no draw takes its position from the flag, then a draw that is executed is executed
again behind itself, restores the screen and reports whether it had covered a dark pixel,
and two draws that are executed are executed in either order, to the same screen. Whether
a draw fails, and how, is the same on every screen. -/
theorem draws_cancel_and_commute :
    (forall (m first : Machine) (p : UInt16) (x y rows : Fin 16),
      m.DrawsAt p x y rows -> x ≠ flagRegister -> y ≠ flagRegister ->
      cycleAt p m = .ok .executed first ->
        exists last, cycleAt p first = .ok .executed last ∧ last.screen = m.screen ∧
          (last.registers.get flagRegister = 1 ↔
            exists k, exists hk : k < 2048, m.Covers x y rows k ∧ m.screen[k] = 0) ∧
          (m.screen = Screen.blank ->
            (last.registers.get flagRegister = 1 ↔
              exists r byte, r < rows.val ∧ m.memory[m.index.toNat + r]? = some byte ∧
                byte ≠ 0))) ∧
    (forall (m afterP afterQ : Machine) (p q : UInt16) (x y rows x' y' rows' : Fin 16),
      m.DrawsAt p x y rows -> m.DrawsAt q x' y' rows' ->
      x ≠ flagRegister -> y ≠ flagRegister -> x' ≠ flagRegister -> y' ≠ flagRegister ->
      cycleAt p m = .ok .executed afterP -> cycleAt q m = .ok .executed afterQ ->
        exists last last', cycleAt q afterP = .ok .executed last ∧
          cycleAt p afterQ = .ok .executed last' ∧ last.screen = last'.screen) ∧
    (forall (m : Machine) (p : UInt16) (x y rows : Fin 16) (screen : Screen)
      (failure : Failure), m.DrawsAt p x y rows ->
        ((exists after, cycleAt p m = .error failure after) ↔
          exists after, cycleAt p { m with screen } = .error failure after)) := by
  refine ⟨?_, ?_, ?_⟩
  · intro m first p x y rows hdraws hx hy hfirst
    rcases draw_twice hdraws hx hy hfirst with ⟨last, hcycle, hscreen, hflag⟩
    have hnone := (of_cycleAt_ok hdraws hfirst).1
    exact ⟨last, hcycle, hscreen, hflag,
      fun hblank => hflag.trans (exists_dark_iff_of_blank hnone hblank)⟩
  · intro m afterP afterQ p q x y rows x' y' rows' hp hq hx hy hx' hy' hfirst hsecond
    exact draws_commute hp hq hx hy hx' hy' hfirst hsecond
  · intro m p x y rows screen failure hdraws
    have hsame : m.SameSprite { m with screen } x y := ⟨rfl, rfl, rfl, rfl⟩
    rw [cycleAt_error_iff hdraws, cycleAt_error_iff (hsame.drawsAt hdraws),
      hsame.drawFailure?]

/-- Two draws of the glyph of zero at the right edge, which overlap and of which the second
continues on the next row. -/
def overlapping : List UInt8 :=
  [0xD0, 0x12, 0xD3, 0x13]

def overlappingDraws : Machine :=
  { loaded overlapping with
    registers := #v[60, 0, 0, 62, 0, 0, 0, 0, 0, 0, 0, 0, 0, 0, 0, 0] }

theorem drawsAt_overlappingDraws :
    overlappingDraws.DrawsAt 0x200 0 1 2 ∧ overlappingDraws.DrawsAt 0x202 3 1 3 := by
  have hfit : overlapping.length ≤ 3584 := by decide
  have hplace : (0x200 : UInt16).toNat = 512 + 0 := rfl
  have hplace' : (0x202 : UInt16).toNat = 512 + 2 := rfl
  have hhigh : overlapping[0]? = some 0xD0 := rfl
  have hlow : overlapping[0 + 1]? = some 0x12 := rfl
  have hhigh' : overlapping[2]? = some 0xD3 := rfl
  have hlow' : overlapping[2 + 1]? = some 0x13 := rfl
  constructor
  · exact ⟨0xD012, word?_loaded hfit hplace hhigh hlow, rfl, rfl, rfl, rfl⟩
  · exact ⟨0xD313, word?_loaded hfit hplace' hhigh' hlow', rfl, rfl, rfl, rfl⟩

theorem overlappingDraws_cancel_and_commute :
    overlappingDraws.DrawsAt 0x200 0 1 2 ∧ overlappingDraws.DrawsAt 0x202 3 1 3 ∧
    exists first second,
      cycleAt 0x200 overlappingDraws = .ok .executed first ∧
      cycleAt 0x202 overlappingDraws = .ok .executed second ∧
      (exists last, cycleAt 0x200 first = .ok .executed last ∧
        last.screen = overlappingDraws.screen ∧
        last.registers.get flagRegister = 1) ∧
      (exists last last', cycleAt 0x202 first = .ok .executed last ∧
        cycleAt 0x200 second = .ok .executed last' ∧ last.screen = last'.screen) ∧
      forall failure, ¬ exists after,
        cycleAt 0x202 { overlappingDraws with screen := first.screen } = .error failure after := by
  rcases drawsAt_overlappingDraws with ⟨hp, hq⟩
  have hnone : overlappingDraws.drawFailure? 0 1 2 = none := by decide +kernel
  have hnone' : overlappingDraws.drawFailure? 3 1 3 = none := by decide +kernel
  rcases cycleAt_of_drawable hp hnone with ⟨word, hfirst⟩
  rcases cycleAt_of_drawable hq hnone' with ⟨word', hsecond⟩
  refine ⟨hp, hq, _, _, hfirst, hsecond, ?_, ?_, ?_⟩
  · rcases draws_cancel_and_commute.1 _ _ _ _ _ _ hp (by decide) (by decide) hfirst with
      ⟨last, hcycle, hscreen, _, hblank⟩
    refine ⟨last, hcycle, hscreen, (hblank rfl).mpr ⟨0, 0xF0, by decide, ?_, by decide⟩⟩
    decide +kernel
  · exact draws_cancel_and_commute.2.1 _ _ _ _ _ _ _ _ _ _ _ hp hq (by decide) (by decide)
      (by decide) (by decide) hfirst hsecond
  · intro failure hfails
    have hbefore := (draws_cancel_and_commute.2.2 _ _ _ _ _ _ failure hq).mpr hfails
    rw [cycleAt_error_iff hq, hnone'] at hbefore
    cases hbefore

end Machine

end Chip8
