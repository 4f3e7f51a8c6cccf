import Chip8.Proofs.Cycle.WriteSets
import Chip8.Proofs.Instruction.Failures
import Mathlib.Data.Nat.Count

/-!
# Timers

Both timers count the cycles that end inside memory, whether these execute an instruction or
pass over a word that stands for none. A cycle that fails and one outside memory let no time
pass. So after a run a timer is what it was set to last, less the cycles counted since, and
zero once there were more of them.
-/

namespace Chip8

namespace Machine

def counts (m : Machine) : Bool :=
  match m.cycle with
  | .ok .executed _ => true
  | .ok (.diagnosed (.noInstruction _)) _ => true
  | _ => false

def counted (m : Machine) (n : Nat) : Nat :=
  Nat.count (fun k => (m.afterCycles k).counts = true) n

variable {m : Machine} {word : UInt16}

theorem counts_of_executedWord? (h : m.executedWord? = some word) : m.counts = true := by
  unfold executedWord? at h
  unfold counts
  split at h
  · rename_i hcycle
    rw [hcycle]
  · cases h

theorem counted_succ (m : Machine) (n : Nat) :
    m.counted (n + 1) = m.counted n + if (m.afterCycles n).counts = true then 1 else 0 :=
  Nat.count_succ _ n

theorem counted_cycled (m : Machine) (n : Nat) :
    m.counted (n + 1) = m.cycled.counted n + if m.counts = true then 1 else 0 := by
  simp only [counted, afterCycles_cycled]
  exact Nat.count_succ' _ n

end Machine

inductive Timer where
  | delay
  | sound
  deriving DecidableEq, Repr

namespace Timer

open Machine

def read (m : Machine) : Timer → UInt8
  | delay => m.delayTimer
  | sound => m.soundTimer

def setter : Timer → Nat
  | delay => 0x15
  | sound => 0x18

def IsSet (timer : Timer) (m : Machine) : Prop :=
  m.Executes (Opcode.IsDevice timer.setter)

def IsSetTo (timer : Timer) (m : Machine) (value : UInt8) : Prop :=
  exists word, m.executedWord? = some word ∧ Opcode.IsDevice timer.setter word ∧
    m.registers.get (Opcode.x word) = value

variable {m : Machine} {word : UInt16} {instruction : Instruction} {value : UInt8} {n : Nat}
variable (timer : Timer)

/-!
## One instruction
-/

theorem read_aged (m : Machine) : timer.read m.aged = countDown (timer.read m) := by
  cases timer <;> rfl

theorem read_effect_of_not (hspelled : instruction.SpelledBy word)
    (hset : ¬ Opcode.IsDevice timer.setter word) :
    timer.read (instruction.effect m) = timer.read m := by
  cases timer with
  | delay =>
      apply Instruction.delayTimer_effect_of_ne
      intro x hsame
      subst hsame
      exact hset ⟨hspelled.1, hspelled.2.1⟩
  | sound =>
      apply Instruction.soundTimer_effect_of_ne
      intro x hsame
      subst hsame
      exact hset ⟨hspelled.1, hspelled.2.1⟩

theorem read_effect (hspelled : instruction.SpelledBy word)
    (hset : Opcode.IsDevice timer.setter word) :
    timer.read (instruction.effect m) = m.registers.get (Opcode.x word) := by
  cases timer with
  | delay =>
      have hinstruction : instruction = .setDelay (Opcode.x word) :=
        hspelled.unique ⟨hset.1, hset.2, rfl⟩
      rw [hinstruction]
      rfl
  | sound =>
      have hinstruction : instruction = .setSound (Opcode.x word) :=
        hspelled.unique ⟨hset.1, hset.2, rfl⟩
      rw [hinstruction]
      rfl

/-!
## One cycle

The timer counts behind the instruction, so a cycle that sets it counts as well.
-/

theorem read_fetched (m : Machine) (pc opcode : UInt16) (drawn : Bool) (outbox : Outbox) :
    timer.read { m with pc, opcode, drawn, outbox } = timer.read m := by
  cases timer <;> rfl

theorem read_executed (hspelled : instruction.SpelledBy word)
    (hset : ¬ Opcode.IsDevice timer.setter word) :
    timer.read (m.executed word instruction) = countDown (timer.read m) := by
  have heffect := timer.read_effect_of_not (m := m.fetched word) hspelled hset
  rw [executed, read_aged]
  exact congrArg countDown
    ((timer.read_fetched _ _ _ _ _).trans (heffect.trans (timer.read_fetched m _ _ _ _)))

theorem toNat_read_cycled_of_not (h : ¬ timer.IsSet m) :
    (timer.read m.cycled).toNat =
      (timer.read m).toNat - if m.counts = true then 1 else 0 := by
  cases cycle_cases m with
  | outside _ hcycle =>
      have hcounts : m.counts = false := by rw [counts, hcycle]
      rw [cycled_of_ok hcycle, hcounts]
      exact congrArg UInt8.toNat (timer.read_fetched m _ _ _ _)
  | failed word instruction failure _ _ _ hcycle =>
      have hcounts : m.counts = false := by rw [counts, hcycle]
      rw [cycled_of_error hcycle, hcounts]
      exact congrArg UInt8.toNat (timer.read_fetched m _ _ _ _)
  | unknown word _ _ hcycle =>
      have hcounts : m.counts = true := by rw [counts, hcycle]
      have hread : timer.read (m.passed word) = countDown (timer.read m) := by
        rw [passed, read_aged]
        exact congrArg countDown (timer.read_fetched m _ _ _ _)
      rw [cycled_of_ok hcycle, if_pos hcounts, hread, toNat_countDown]
  | executed word instruction hword hspelled _ hcycle =>
      have hexecuted := executedWord?_of_executed hword hcycle
      have hset : ¬ Opcode.IsDevice timer.setter word := fun hset => h ⟨word, hexecuted, hset⟩
      rw [cycled_of_ok hcycle, if_pos (counts_of_executedWord? hexecuted),
        timer.read_executed hspelled hset, toNat_countDown]

theorem toNat_read_cycled_of_setTo (h : timer.IsSetTo m value) :
    (timer.read m.cycled).toNat = value.toNat - 1 := by
  rcases h with ⟨word, hexecuted, hset, rfl⟩
  rcases exists_of_executedWord? hexecuted with ⟨instruction, _, hspelled, _, hcycled⟩
  rw [hcycled, executed, read_aged, toNat_countDown, read_fetched,
    timer.read_effect hspelled hset]
  rfl

theorem exists_setTo (h : timer.IsSet m) : exists value, timer.IsSetTo m value := by
  rcases h with ⟨word, hexecuted, hset⟩
  exact ⟨_, word, hexecuted, hset, rfl⟩

theorem toNat_read_cycled_le (m : Machine) :
    (timer.read m.cycled).toNat ≤ (timer.read m).toNat ∨
      exists value, timer.IsSetTo m value ∧
        (timer.read m.cycled).toNat ≤ value.toNat := by
  by_cases hset : timer.IsSet m
  · rcases timer.exists_setTo hset with ⟨value, hvalue⟩
    refine Or.inr ⟨value, hvalue, ?_⟩
    rw [timer.toNat_read_cycled_of_setTo hvalue]
    exact Nat.sub_le _ _
  · refine Or.inl ?_
    rw [timer.toNat_read_cycled_of_not hset]
    exact Nat.sub_le _ _

/-!
## Runs
-/

theorem toNat_read_afterCycles (n : Nat)
    (hnot : forall k, k < n -> ¬ timer.IsSet (m.afterCycles k)) :
    (timer.read (m.afterCycles n)).toNat = (timer.read m).toNat - m.counted n := by
  induction n with
  | zero => rfl
  | succ n ih =>
      have hbefore := ih fun k hk => hnot k (Nat.lt_succ_of_lt hk)
      rw [afterCycles_succ, timer.toNat_read_cycled_of_not (hnot n (Nat.lt_succ_self n)),
        hbefore, counted_succ, Nat.sub_sub]

theorem toNat_read_behind_setting (n : Nat) (hset : timer.IsSetTo m value)
    (hnot : forall k, 0 < k -> k < n + 1 -> ¬ timer.IsSet (m.afterCycles k)) :
    (timer.read (m.afterCycles (n + 1))).toNat = value.toNat - m.counted (n + 1) := by
  have hcounts : m.counts = true := by
    rcases hset with ⟨word, hexecuted, _⟩
    exact counts_of_executedWord? hexecuted
  have hbehind : forall k, k < n -> ¬ timer.IsSet (m.cycled.afterCycles k) := by
    intro k hk
    rw [afterCycles_cycled]
    exact hnot (k + 1) (Nat.succ_pos k) (Nat.succ_lt_succ hk)
  rw [← afterCycles_cycled, timer.toNat_read_afterCycles n hbehind,
    timer.toNat_read_cycled_of_setTo hset, counted_cycled, if_pos hcounts, Nat.sub_sub,
    Nat.add_comm]

end Timer

namespace Machine

theorem get_cycled_of_readDelay {m : Machine} {word : UInt16}
    (hexecuted : m.executedWord? = some word) (hkind : Opcode.IsDevice 0x07 word) :
    m.cycled.registers.get (Opcode.x word) = m.delayTimer := by
  rcases exists_of_executedWord? hexecuted with ⟨instruction, _, hspelled, _, hcycled⟩
  have hinstruction : instruction = .readDelay (Opcode.x word) :=
    hspelled.unique ⟨hkind.1, hkind.2, rfl⟩
  subst hinstruction
  rw [hcycled]
  exact Registers.get_put_self _

/-- After any run, a timer that no cycle of it set is what it was at the start, less the
cycles that let time pass, and one that was set is what it was set to last, less those from
that cycle on; a timer with fewer left is zero. In no cycle does a timer grow, unless it is
set, and then not beyond the value. The delay timer is read as it is before it counts. -/
theorem timers_count_cycles (m : Machine) (n : Nat) :
    (forall timer : Timer,
      ((forall k, k < n -> ¬ timer.IsSet (m.afterCycles k)) ->
        (timer.read (m.afterCycles n)).toNat = (timer.read m).toNat - m.counted n) ∧
      (forall i value, i < n -> timer.IsSetTo (m.afterCycles i) value ->
        (forall k, i < k -> k < n -> ¬ timer.IsSet (m.afterCycles k)) ->
          (timer.read (m.afterCycles n)).toNat =
            value.toNat - (m.afterCycles i).counted (n - i)) ∧
      (forall i, (timer.read (m.afterCycles (i + 1))).toNat ≤
          (timer.read (m.afterCycles i)).toNat ∨
        exists value, timer.IsSetTo (m.afterCycles i) value ∧
          (timer.read (m.afterCycles (i + 1))).toNat ≤ value.toNat)) ∧
    (forall i word, (m.afterCycles i).executedWord? = some word ->
      Opcode.IsDevice 0x07 word ->
        (m.afterCycles (i + 1)).registers.get (Opcode.x word) =
          (m.afterCycles i).delayTimer) := by
  refine ⟨fun timer => ⟨timer.toNat_read_afterCycles n, ?_, ?_⟩, ?_⟩
  · intro i value hi hset hnot
    rcases Nat.exists_eq_add_of_lt hi with ⟨d, rfl⟩
    have hlength : i + d + 1 - i = d + 1 := by lia
    have hbehind : forall k, 0 < k -> k < d + 1 ->
        ¬ timer.IsSet ((m.afterCycles i).afterCycles k) := by
      intro k hpos hk
      rw [afterCycles_add]
      exact hnot (i + k) (by lia) (by lia)
    rw [hlength, ← timer.toNat_read_behind_setting d hset hbehind, afterCycles_add]
    rfl
  · intro i
    rw [afterCycles_succ]
    exact timer.toNat_read_cycled_le (m.afterCycles i)
  · intro i word hexecuted hkind
    rw [afterCycles_succ]
    exact get_cycled_of_readDelay hexecuted hkind

/-- A machine whose next words set the delay timer to 3, stand for nothing, and return from
no call. It fails at the last one again and again. -/
def failingSoon : Machine :=
  { powerOn with
    memory := Bytes.write (Bytes.zeros 4096) 0 [0xF0, 0x15, 0xFF, 0xFF, 0x00, 0xEE]
    registers := #v[3, 0, 0, 0, 0, 0, 0, 0, 0, 0, 0, 0, 0, 0, 0, 0]
    pc := 0
    soundTimer := 1 }

theorem failingSoon_timers :
    Timer.delay.IsSetTo failingSoon 3 ∧
    (forall k, k < 5 -> ¬ Timer.sound.IsSet (failingSoon.afterCycles k)) ∧
    (failingSoon.afterCycles 5).delayTimer.toNat = 1 ∧
    (failingSoon.afterCycles 5).soundTimer.toNat = 0 := by
  have hfirst : failingSoon.executedWord? = some 0xF015 := by decide +kernel
  have hidle : ∀ k < 5, 0 < k → (failingSoon.afterCycles k).executedWord? = none := by
    decide +kernel
  have hcounted : failingSoon.counted 5 = 2 := by decide +kernel
  have hset : Timer.delay.IsSetTo failingSoon 3 := ⟨_, hfirst, ⟨by decide, by decide⟩, rfl⟩
  have hdelay : forall k, 0 < k -> k < 5 -> ¬ Timer.delay.IsSet (failingSoon.afterCycles k) := by
    intro k hpos hk hagain
    rcases hagain with ⟨word, hexecuted, _⟩
    rw [hidle k hk hpos] at hexecuted
    cases hexecuted
  have hsound : forall k, k < 5 -> ¬ Timer.sound.IsSet (failingSoon.afterCycles k) := by
    intro k hk hagain
    rcases hagain with ⟨word, hexecuted, hkind⟩
    rcases Nat.eq_zero_or_pos k with rfl | hpos
    · rw [afterCycles_zero, hfirst] at hexecuted
      cases hexecuted
      exact absurd hkind.2 (by decide)
    · rw [hidle k hk hpos] at hexecuted
      cases hexecuted
  have hlaws := (timers_count_cycles failingSoon 5).1
  have hdelayed := (hlaws .delay).2.1 0 3 (by decide) hset hdelay
  have hsounded := (hlaws .sound).1 hsound
  rw [afterCycles_zero, Nat.sub_zero, hcounted] at hdelayed
  rw [hcounted] at hsounded
  exact ⟨hset, hsound, hdelayed, hsounded⟩

end Machine

end Chip8
