import Chip8.Error

/-!
# The call stack

The return addresses of the calls in progress. At most sixteen fit.
-/

namespace Chip8

/-- Pending return addresses, the most recent first. -/
structure CallStack where
  entries : List UInt16
  length_le : entries.length ≤ 16 := by decide
  deriving DecidableEq, Repr

namespace CallStack

def capacity : Nat := 16

def empty : CallStack where
  entries := []

def depth (stack : CallStack) : Nat :=
  stack.entries.length

def push (stack : CallStack) (address : UInt16) : Except Error CallStack :=
  if h : stack.entries.length < 16 then .ok ⟨address :: stack.entries, h⟩
  else .error (.stackFull capacity)

def pop : CallStack → Except Error (UInt16 × CallStack)
  | ⟨[], _⟩ => .error .stackEmpty
  | ⟨address :: rest, h⟩ => .ok (address, ⟨rest, Nat.le_of_succ_le h⟩)

theorem push_eq_error_iff {stack : CallStack} {address : UInt16} {cause : Error} :
    stack.push address = .error cause ↔ stack.depth = 16 ∧ cause = .stackFull 16 := by
  have hle := stack.length_le
  unfold push depth capacity
  split
  · simp only [reduceCtorEq, false_iff]
    lia
  · constructor
    · intro h
      cases h
      exact ⟨by lia, rfl⟩
    · intro h
      rw [h.2]

theorem pop_eq_error_iff {stack : CallStack} {cause : Error} :
    stack.pop = .error cause ↔ stack.depth = 0 ∧ cause = .stackEmpty := by
  match stack with
  | ⟨[], _⟩ =>
      simp only [pop, depth, Except.error.injEq, List.length_nil, true_and]
      exact eq_comm
  | ⟨_ :: _, _⟩ => simp [pop, depth]

theorem pop_of_push {stack pushed : CallStack} {address : UInt16}
    (h : stack.push address = .ok pushed) : pushed.pop = .ok (address, stack) := by
  unfold push at h
  split at h
  · cases h
    rfl
  · cases h

end CallStack

end Chip8
