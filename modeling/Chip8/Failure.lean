import Chip8.Error

/-!
# Failing operations

Operations that change a state and may fail on the way. A failing operation keeps
whatever it changed before, so that it leaves the state alone has to be proved of it.
There are two ways to fail: an error has a cause and is reported, and a trap is what
happens where no check stands before an access or a sum that has no value.
-/

namespace Chip8

inductive Failure where
  | error (cause : Error)
  | trap
  deriving DecidableEq, Repr

namespace Failure

variable {σ α : Type}

def attempt : Except Error α → EStateM Failure σ α
  | .ok value => pure value
  | .error cause => throw (.error cause)

def orTrap : Option α → EStateM Failure σ α
  | some value => pure value
  | none => throw .trap

theorem bind_apply {β : Type} (first : EStateM Failure σ α) (rest : α → EStateM Failure σ β)
    (s : σ) :
    (first >>= rest) s =
      match first s with
      | .ok value after => rest value after
      | .error failure after => .error failure after := by
  simp only [bind, EStateM.bind]
  cases first s with
  | ok value after => rfl
  | error failure after => rfl

theorem pure_apply (value : α) (s : σ) :
    (pure value : EStateM Failure σ α) s = .ok value s :=
  rfl

theorem throw_apply (failure : Failure) (s : σ) :
    (throw failure : EStateM Failure σ α) s = .error failure s :=
  rfl

theorem get_apply (s : σ) : (get : EStateM Failure σ σ) s = .ok s s :=
  rfl

theorem set_apply (s t : σ) : (set t : EStateM Failure σ PUnit) s = .ok ⟨⟩ t :=
  rfl

theorem modify_apply (f : σ → σ) (s : σ) :
    (modify f : EStateM Failure σ PUnit) s = .ok ⟨⟩ (f s) :=
  rfl

@[simp]
theorem attempt_ok (value : α) (s : σ) :
    (attempt (.ok value) : EStateM Failure σ α) s = .ok value s :=
  rfl

@[simp]
theorem attempt_error (cause : Error) (s : σ) :
    (attempt (.error cause) : EStateM Failure σ α) s = .error (.error cause) s :=
  rfl

@[simp]
theorem orTrap_some (value : α) (s : σ) :
    (orTrap (some value) : EStateM Failure σ α) s = .ok value s :=
  rfl

@[simp]
theorem orTrap_none (s : σ) :
    (orTrap none : EStateM Failure σ α) s = .error .trap s :=
  rfl

end Failure

end Chip8
