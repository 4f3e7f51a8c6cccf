import Chip8.Proofs.Runner.Pacing

/-!
# What a run shows

Every change of the screen sets the drawing flag, and the runner then shows the screen
in the same cycle. So a terminal that is written to at all ends with the present screen,
and what is written is the frames of the cycles, one after the other.
-/

namespace Chip8

namespace Machine

variable {m : Machine}

def frames (m : Machine) : Nat → String
  | 0 => ""
  | count + 1 => m.frames count ++ (m.afterCycles count).frame

theorem frames_one (m : Machine) : m.frames 1 = m.frame := by
  rw [frames, frames, String.empty_append]
  rfl

theorem frames_succ (m : Machine) (count : Nat) :
    m.frames (count + 1) = m.frame ++ m.cycled.frames count := by
  induction count with
  | zero => rw [frames_one, frames, String.append_empty]
  | succ count ih => rw [frames, ih, frames, afterCycles_cycled, String.append_assoc]

end Machine

namespace Runner

variable {r r' : Runner} {reason? : Option Halt}

def advance : Nat → RunnerM (Option Halt)
  | 0 => return none
  | count + 1 => do
      match ← turn with
      | some reason => return some reason
      | none => advance count

/-- The runner `r'` is what a run from `r` is at behind one of its cycles, or what it ends
with, unless that is a trap. -/
inductive Visits (r : Runner) : Runner → Prop where
  | between {count : Nat} {r' : Runner} (h : advance count r = .ok none r') : Visits r r'
  | returned {reason : Halt} {r' : Runner} (h : run r = .ok reason r') : Visits r r'
  | failed {cause : Error} {r' : Runner} (h : run r = .error (.error cause) r') :
      Visits r r'

/-- From `r` to `r'` there were `count` cycles. All of them are counted, except for a last
one that failed, and if the screen is to be shown their frames are printed. -/
structure Progress (r r' : Runner) (count : Nat) : Prop where
  machine : r'.machine = r.machine.afterCycles count
  cycles : r'.cycles.toNat = r.cycles.toNat + count ∨
    exists earlier cause after, count = earlier + 1 ∧
      r'.cycles.toNat = r.cycles.toNat + earlier ∧
      (r.machine.afterCycles earlier).cycle = .error (.error cause) after
  terminal : r'.terminal =
    r.terminal ++ if r.options.render then r.machine.frames count else ""

/-!
## One cycle
-/

theorem Progress.refl (r : Runner) : r.Progress r 0 where
  machine := rfl
  cycles := Or.inl rfl
  terminal := by
    rw [Machine.frames, ite_self, String.append_empty]

theorem progress_of_runCycle (h : runCycle r.options.render r = .ok reason? r') :
    r.Progress r' 1 where
  machine := by
    rw [(of_runCycle_ok h).2.2]
    rfl
  cycles := Or.inl (cycles_of_runCycle_ok h)
  terminal := by
    rw [(of_runCycle_ok h).2.2, Machine.frames_one]
    rfl

theorem progress_of_fault {cause : Error}
    (h : runCycle r.options.render r = .error (.error cause) r') : r.Progress r' 1 := by
  rcases of_runCycle_error h with ⟨rfl, htrap | ⟨after, hcycle⟩⟩
  · cases htrap
  · have hframe : r.machine.frame = "" := by
      rw [Machine.frame, Machine.executedWord?_of_error hcycle]
    refine ⟨rfl, Or.inr ⟨0, cause, after, rfl, rfl, hcycle⟩, ?_⟩
    rw [Machine.frames_one, hframe, ite_self, String.append_empty]

theorem Progress.cons {count : Nat} {r'' : Runner}
    (h : runCycle r.options.render r = .ok none r') (hrest : r'.Progress r'' count) :
    r.Progress r'' (count + 1) := by
  have hcycles := cycles_of_runCycle_ok h
  have hnext := (of_runCycle_ok h).2.2
  have hmachine : r'.machine = r.machine.cycled := by rw [hnext]; rfl
  refine ⟨?_, ?_, ?_⟩
  · rw [hrest.machine, hmachine, Machine.afterCycles_cycled]
  · rcases hrest.cycles with hall | ⟨earlier, cause, after, hcount, hcounted, hfault⟩
    · exact Or.inl (by lia)
    · rw [hmachine, Machine.afterCycles_cycled] at hfault
      exact Or.inr ⟨earlier + 1, cause, after, by lia, by lia, hfault⟩
  · have hoptions : r'.options = r.options := by rw [hnext]; rfl
    have hprinted : r'.terminal =
        r.terminal ++ if r.options.render then r.machine.frame else "" := by
      rw [hnext]
      rfl
    rw [hrest.terminal, hoptions, hprinted, hmachine, Machine.frames_succ,
      String.append_assoc]
    split
    · rfl
    · rw [String.append_empty]

/-!
## Whole runs

The turns of a run are an advance that may not go on for ever. An advance makes progress
turn by turn, the first one in front of the others.
-/

theorem advance_succ (count : Nat) (r : Runner) :
    advance (count + 1) r =
      match turn r with
      | .ok none r' => advance count r'
      | .ok (some reason) r' => .ok (some reason) r'
      | .error failure r' => .error failure r' := by
  rw [advance, Failure.bind_apply]
  cases turn r with
  | error failure r' => rfl
  | ok reason? r' => cases reason? <;> rfl

theorem turns_eq_advance (count : Nat) (r : Runner) :
    turns count r =
      match advance count r with
      | .ok none r' => .error .trap r'
      | .ok (some reason) r' => .ok reason r'
      | .error failure r' => .error failure r' := by
  induction count generalizing r with
  | zero => rfl
  | succ count ih =>
      rw [turns_succ, advance_succ]
      cases turn r with
      | error failure r' => rfl
      | ok reason? r' =>
          cases reason? with
          | none => exact ih r'
          | some reason => rfl

theorem advance_of_turns_ok {count : Nat} {reason : Halt}
    (h : turns count r = .ok reason r') : advance count r = .ok (some reason) r' := by
  rw [turns_eq_advance] at h
  cases hadvance : advance count r with
  | error failure next =>
      rw [hadvance] at h
      cases h
  | ok stop? next =>
      rw [hadvance] at h
      cases stop? with
      | none => cases h
      | some stop =>
          cases h
          rfl

theorem advance_of_turns_fault {count : Nat} {cause : Error}
    (h : turns count r = .error (.error cause) r') :
    advance count r = .error (.error cause) r' := by
  rw [turns_eq_advance] at h
  cases hadvance : advance count r with
  | error failure next =>
      rw [hadvance] at h
      cases h
      rfl
  | ok stop? next =>
      rw [hadvance] at h
      cases stop? <;> cases h

theorem progress_of_advance {count : Nat} {ending : EStateM.Result Failure Runner (Option Halt)}
    (h : advance count r = ending) (htrap : forall after, ending ≠ .error .trap after) :
    exists cycles, r.Progress (Failure.stateOf ending) cycles := by
  subst h
  induction count generalizing r with
  | zero => exact ⟨0, Progress.refl r⟩
  | succ count ih =>
      rw [advance_succ] at htrap ⊢
      by_cases hlimit : r.atLimit = true
      · rw [turn_of_limit hlimit]
        exact ⟨0, Progress.refl r⟩
      · rw [turn_of_not_limit hlimit] at htrap ⊢
        cases hcycle : runCycle r.options.render r with
        | error failure next =>
            rw [hcycle] at htrap
            cases failure with
            | trap => exact absurd rfl (htrap next)
            | error cause => exact ⟨1, progress_of_fault hcycle⟩
        | ok reason? next =>
            rw [hcycle] at htrap
            cases reason? with
            | some reason => exact ⟨1, progress_of_runCycle hcycle⟩
            | none =>
                rcases ih htrap with ⟨cycles, hrest⟩
                exact ⟨cycles + 1, Progress.cons hcycle hrest⟩

theorem progress_of_visits (h : r.Visits r') : exists cycles, r.Progress r' cycles := by
  cases h with
  | between h => exact progress_of_advance h fun after htrap => by cases htrap
  | returned h =>
      by_cases hrate : r.options.rate = 0
      · rw [run_of_zero_rate hrate] at h
        cases h
      · rw [run_eq_turns hrate] at h
        exact progress_of_advance (advance_of_turns_ok h) fun after htrap => by cases htrap
  | failed h =>
      by_cases hrate : r.options.rate = 0
      · rw [run_of_zero_rate hrate] at h
        cases h
        exact ⟨0, Progress.refl r⟩
      · rw [run_eq_turns hrate] at h
        exact progress_of_advance (advance_of_turns_fault h) fun after htrap => by cases htrap

end Runner

end Chip8
