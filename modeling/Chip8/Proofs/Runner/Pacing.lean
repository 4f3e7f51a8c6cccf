import Chip8.Proofs.Runner.Turn

/-!
# Paced runs and batches

A configured run differs from a batch of cycles in what it shows and in how it notices
its limit. Apart from the terminal it ends like the batch of the cycles that its limit
leaves, and batches can be put together from smaller ones.
-/

namespace Chip8

def Failure.mapState {σ τ α : Type} (f : σ → τ) :
    EStateM.Result Failure σ α → EStateM.Result Failure τ α
  | .ok value after => .ok value (f after)
  | .error failure after => .error failure (f after)

namespace Runner

variable {r : Runner} {limit : UInt64}

def muted (r : Runner) : Runner :=
  { r with terminal := "" }

/-!
## The terminal does not matter
-/

theorem muted_turned (after : Machine) (text : String) :
    ((r.advanced 1 after).printed text).muted = r.muted.advanced 1 after :=
  rfl

theorem runCycle_muted (render : Bool) (r : Runner) :
    runCycle false r.muted = Failure.mapState muted (runCycle render r) := by
  have hmachine : r.muted.machine = r.machine := rfl
  have hcycles : r.muted.cycles = r.cycles := rfl
  rw [runCycle_eq, runCycle_eq, hmachine, hcycles]
  cases r.machine.cycle with
  | error failure after => rfl
  | ok outcome after =>
      dsimp only
      split
      · rw [if_neg Bool.false_ne_true, printed_empty, ← muted_turned]
        rfl
      · rfl

theorem runFor_muted (count : Nat) (r : Runner) :
    runFor count r.muted = Failure.mapState muted (runFor count r) := by
  induction count generalizing r with
  | zero => rfl
  | succ count ih =>
      rw [runFor_succ, runFor_succ, runCycle_muted false r]
      cases runCycle false r with
      | error failure r' => rfl
      | ok reason? r' =>
          cases reason? with
          | none => exact ih r'
          | some reason => rfl

/-!
## Turns
-/

theorem atLimit_iff (hlimit : r.options.limit = some limit) :
    r.atLimit = true ↔ limit.toNat ≤ r.cycles.toNat := by
  rw [atLimit, hlimit]
  exact decide_eq_true_iff.trans UInt64.le_iff_toNat_le

theorem turn_of_limit (h : r.atLimit = true) : turn r = .ok (some .cycleLimit) r := by
  simp only [turn, Failure.bind_apply, Failure.get_apply, h, if_true]
  rfl

theorem turn_of_not_limit (h : ¬ r.atLimit = true) :
    turn r = runCycle r.options.render r := by
  simp only [turn, Failure.bind_apply, Failure.get_apply, h]
  rfl

theorem turns_succ (count : Nat) (r : Runner) :
    turns (count + 1) r =
      match turn r with
      | .ok none r' => turns count r'
      | .ok (some reason) r' => .ok reason r'
      | .error failure r' => .error failure r' := by
  rw [turns, Failure.bind_apply]
  cases turn r with
  | error failure r' => rfl
  | ok reason? r' => cases reason? <;> rfl

theorem turns_muted (count : Nat) (hlimit : r.options.limit = some limit)
    (hcount : limit.toNat - r.cycles.toNat < count) :
    Failure.mapState muted (turns count r) =
      runFor (limit.toNat - r.cycles.toNat) r.muted := by
  induction count generalizing r with
  | zero => exact absurd hcount (Nat.not_lt_zero _)
  | succ count ih =>
      rw [turns_succ]
      by_cases hreached : r.atLimit = true
      · rw [turn_of_limit hreached,
          Nat.sub_eq_zero_of_le ((atLimit_iff hlimit).mp hreached)]
        rfl
      · have hleft : r.cycles.toNat < limit.toNat :=
          Nat.lt_of_not_le fun hle => hreached ((atLimit_iff hlimit).mpr hle)
        have hsplit : limit.toNat - r.cycles.toNat =
            limit.toNat - (r.cycles.toNat + 1) + 1 := by lia
        rw [turn_of_not_limit hreached, hsplit, runFor_succ,
          runCycle_muted r.options.render r]
        cases hcycle : runCycle r.options.render r with
        | error failure r' => rfl
        | ok reason? r' =>
            cases reason? with
            | some reason => rfl
            | none =>
                have hcycles := cycles_of_runCycle_ok hcycle
                have hsame : r'.options.limit = some limit := by
                  rw [(of_runCycle_ok hcycle).2.2]
                  exact hlimit
                rw [← hcycles]
                exact ih hsame (by lia)

theorem checkRate_eq (r : Runner) :
    checkRate r =
      if r.options.rate = 0 then
        .error (.error (.usage "cycle rate must be greater than zero")) r
      else .ok () r := by
  simp only [checkRate, Failure.bind_apply, Failure.get_apply]
  rw [Failure.ite_apply]
  rfl

theorem run_of_zero_rate (hrate : r.options.rate = 0) :
    run r = .error (.error (.usage "cycle rate must be greater than zero")) r := by
  rw [run, Failure.bind_apply, checkRate_eq, if_pos hrate]

theorem run_eq_turns (hrate : r.options.rate ≠ 0) :
    run r = turns (UInt64.size - r.cycles.toNat) r := by
  rw [run, Failure.bind_apply, checkRate_eq, if_neg hrate]
  rfl

theorem run_muted (hrate : r.options.rate ≠ 0) (hlimit : r.options.limit = some limit) :
    Failure.mapState muted (run r) =
      Failure.mapState muted (runFor (limit.toNat - r.cycles.toNat) r) := by
  -- The limit is itself a count, so the turns outlast it.
  have hlast := limit.toNat_lt
  have hcount : limit.toNat - r.cycles.toNat < UInt64.size - r.cycles.toNat := by
    have hcycles := r.cycles.toNat_lt
    show _ < 18446744073709551616 - _
    lia
  rw [run_eq_turns hrate, turns_muted _ hlimit hcount, runFor_muted]

/-!
## The count of cycles
-/

theorem cycles_runFor_le (count : Nat) (r : Runner) :
    (Failure.stateOf (runFor count r)).cycles.toNat ≤ r.cycles.toNat + count := by
  induction count generalizing r with
  | zero => exact Nat.le_refl _
  | succ count ih =>
      rw [runFor_succ]
      cases hcycle : runCycle false r with
      | error failure r' =>
          rw [(of_runCycle_error hcycle).1]
          exact Nat.le_add_right _ _
      | ok reason? r' =>
          have hcycles := cycles_of_runCycle_ok hcycle
          cases reason? with
          | some reason =>
              show r'.cycles.toNat ≤ _
              lia
          | none =>
              have hrest := ih r'
              dsimp only
              lia

theorem cycles_run_eq (hrate : r.options.rate ≠ 0) (hlimit : r.options.limit = some limit) :
    (Failure.stateOf (run r)).cycles =
      (Failure.stateOf (runFor (limit.toNat - r.cycles.toNat) r)).cycles := by
  have hsame := congrArg (fun result => (Failure.stateOf result).cycles)
    (run_muted hrate hlimit)
  generalize run r = paced at hsame ⊢
  generalize runFor _ r = batch at hsame ⊢
  cases paced <;> cases batch <;> exact hsame

/-- With a rate and a limit, a run ends like the batch of the cycles that the limit leaves,
except for the terminal, and never counts beyond its limit. A batch is the batch of a part
of its cycles, followed by the rest if nothing stopped it. Without a rate nothing is
run. -/
theorem run_agrees_with_batches (r : Runner) :
    (forall limit, r.options.rate ≠ 0 -> r.options.limit = some limit ->
      Failure.mapState muted (run r) =
        Failure.mapState muted (runFor (limit.toNat - r.cycles.toNat) r) ∧
      (Failure.stateOf (run r)).cycles.toNat ≤ max r.cycles.toNat limit.toNat) ∧
    (forall first second,
      runFor (first + second) r =
        match runFor first r with
        | .ok .cycleLimit r' => runFor second r'
        | result => result) ∧
    (r.options.rate = 0 ->
      run r = .error (.error (.usage "cycle rate must be greater than zero")) r) := by
  refine ⟨?_, fun first second => runFor_add first second r, run_of_zero_rate⟩
  intro limit hrate hlimit
  refine ⟨run_muted hrate hlimit, ?_⟩
  rw [cycles_run_eq hrate hlimit]
  have hcount := cycles_runFor_le (limit.toNat - r.cycles.toNat) r
  lia

def nearLimit : Runner where
  options := { program := "none.ch8", limit := some 9 }
  cycles := 7

theorem nearLimit_ends_like_batch :
    nearLimit.options.rate ≠ 0 ∧ nearLimit.options.limit = some 9 ∧
    Failure.mapState muted (run nearLimit) = Failure.mapState muted (runFor 2 nearLimit) ∧
    (Failure.stateOf (run nearLimit)).cycles.toNat ≤ 9 :=
  have hrate : nearLimit.options.rate ≠ 0 := by decide
  ⟨hrate, rfl, (run_agrees_with_batches nearLimit).1 9 hrate rfl⟩

end Runner

end Chip8
