import Chip8.Proofs.Cycle.Succession
import Chip8.Proofs.Host.Reachable
import Chip8.Proofs.Instruction.Failures
import Mathlib.Data.List.Infix
import Mathlib.Data.Nat.Count

/-!
# Calls and returns

Only calls and returns touch the call stack, one address at a time. So a return that
brings the stack back to the depth of a call goes on behind that call, whatever happened
in between, and the calls in progress are the executed calls less the executed returns.
-/

namespace Chip8

theorem CallStack.entries_pushed {stack : CallStack} {address : UInt16}
    (h : stack.depth ≠ 16) : (stack.pushed address).entries = address :: stack.entries := by
  have hroom : stack.entries.length < 16 := Nat.lt_of_le_of_ne stack.length_le h
  rw [pushed, dif_pos hroom]

namespace Machine

variable {m : Machine}

def calls (m : Machine) : Bool :=
  m.executedWord?.any fun word => Opcode.family word == 0x2

def returns (m : Machine) : Bool :=
  m.executedWord?.any fun word =>
    Opcode.family word == 0x0 && (Opcode.low word).val == 0xE

theorem calls_iff :
    m.calls = true ↔
      exists word, m.executedWord? = some word ∧ Opcode.family word = 0x2 := by
  rw [calls, Option.any_eq_true]
  simp only [beq_iff_eq]

theorem returns_iff :
    m.returns = true ↔
      exists word, m.executedWord? = some word ∧ Opcode.family word = 0x0 ∧
        (Opcode.low word).val = 0xE := by
  rw [returns, Option.any_eq_true]
  simp only [Bool.and_eq_true, beq_iff_eq]

/-!
## The stack in one cycle

A call puts the address behind it on top, a return takes the top and goes there, and no
other cycle touches the stack. So addresses at the bottom stay there in a cycle that leaves
room for them.
-/

theorem entries_cycled_of_calls (h : m.calls = true) :
    m.cycled.stack.entries = (m.pc + 2) :: m.stack.entries := by
  rcases calls_iff.mp h with ⟨word, hexecuted, hfamily⟩
  rcases exists_of_executedWord? hexecuted with
    ⟨instruction, _, hspelled, hfailure, hcycled⟩
  have hcall : instruction = .call (Opcode.address word) :=
    hspelled.unique ⟨hfamily, rfl⟩
  subst hcall
  have hroom : m.stack.depth ≠ 16 := by
    intro hfull
    rw [Instruction.failure?, if_pos hfull] at hfailure
    cases hfailure
  rw [hcycled]
  exact CallStack.entries_pushed hroom

theorem pc_le_of_calls (h : m.calls = true) : m.pc.toNat ≤ 4094 := by
  rcases calls_iff.mp h with ⟨word, hexecuted, _⟩
  rcases exists_of_executedWord? hexecuted with ⟨_, hword, _⟩
  exact Memory.address_le_of_word? hword

theorem entries_of_returns (h : m.returns = true) :
    m.stack.entries = m.cycled.pc :: m.cycled.stack.entries := by
  rcases returns_iff.mp h with ⟨word, hexecuted, hfamily, hlow⟩
  rcases exists_of_executedWord? hexecuted with
    ⟨instruction, _, hspelled, hfailure, hcycled⟩
  have hret : instruction = .ret := hspelled.unique ⟨hfamily, hlow⟩
  subst hret
  rw [hcycled]
  show m.stack.entries = m.stack.entries.headD 0 :: m.stack.entries.tail
  cases hentries : m.stack.entries with
  | cons address rest => rfl
  | nil =>
      have hempty : m.stack.depth = 0 := by
        rw [CallStack.depth, hentries]
        rfl
      rw [Instruction.failure?, if_pos hempty] at hfailure
      cases hfailure

theorem stack_cycled_of_neither (hcalls : ¬ m.calls = true) (hreturns : ¬ m.returns = true) :
    m.cycled.stack = m.stack := by
  cases hexecuted : m.executedWord? with
  | none =>
      rcases cycled_of_idle hexecuted with ⟨pc, opcode, delayTimer, soundTimer, hcycled⟩
      rw [hcycled]
  | some word =>
      rcases exists_of_executedWord? hexecuted with
        ⟨instruction, _, hspelled, _, hcycled⟩
      rw [hcycled]
      refine Instruction.stack_effect_of_ne (m := m.fetched word) ?_ ?_
      · rintro rfl
        exact hreturns (returns_iff.mpr ⟨word, hexecuted, hspelled⟩)
      · rintro target rfl
        exact hcalls (calls_iff.mpr ⟨word, hexecuted, hspelled.1⟩)

theorem suffix_cycled {older : List UInt16} (h : older <:+ m.stack.entries)
    (hdepth : older.length ≤ m.cycled.stack.depth) : older <:+ m.cycled.stack.entries := by
  by_cases hcalls : m.calls = true
  · rw [entries_cycled_of_calls hcalls]
    exact h.trans (List.suffix_cons _ _)
  · by_cases hreturns : m.returns = true
    · rw [entries_of_returns hreturns] at h
      exact List.suffix_of_suffix_length_le h (List.suffix_cons _ _) hdepth
    · rw [stack_cycled_of_neither hcalls hreturns]
      exact h

theorem depth_cycled (m : Machine) :
    m.cycled.stack.depth + (if m.returns = true then 1 else 0) =
      m.stack.depth + if m.calls = true then 1 else 0 := by
  unfold CallStack.depth
  by_cases hcalls : m.calls = true
  · have hpushed := entries_cycled_of_calls hcalls
    have hnot : ¬ m.returns = true := by
      intro hreturns
      have hlength := congrArg List.length (entries_of_returns hreturns)
      rw [hpushed, List.length_cons, List.length_cons] at hlength
      lia
    rw [if_pos hcalls, if_neg hnot, hpushed]
    rfl
  · rw [if_neg hcalls]
    by_cases hreturns : m.returns = true
    · rw [if_pos hreturns, entries_of_returns hreturns]
      rfl
    · rw [if_neg hreturns, stack_cycled_of_neither hcalls hreturns]

end Machine

/-!
## Sessions
-/

/-- A machine, and the keys that its host presses (`true`) and releases (`false`) before
each of its cycles. A number that no key has changes nothing. -/
structure Session where
  machine : Machine
  changes : Nat → List (Nat × Bool)

namespace Session

def changed (m : Machine) (changes : List (Nat × Bool)) : Machine :=
  changes.foldl (fun m change => (Operation.press change.1 change.2).after m) m

def before (s : Session) : Nat → Machine
  | 0 => changed s.machine (s.changes 0)
  | k + 1 => changed (s.before k).cycled (s.changes (k + 1))

def after (s : Session) (k : Nat) : Machine :=
  (s.before k).cycled

theorem stack_changed (m : Machine) (changes : List (Nat × Bool)) :
    (changed m changes).stack = m.stack := by
  induction changes generalizing m with
  | nil => rfl
  | cons change rest ih =>
      have hpress : ((Operation.press change.1 change.2).after m).stack = m.stack := by
        rw [Operation.after_press]
        split <;> rfl
      exact (ih _).trans hpress

variable (s : Session) {i j : Nat}

theorem stack_before_succ (k : Nat) : (s.before (k + 1)).stack = (s.after k).stack :=
  stack_changed _ _

/-!
## From a call to its return

The address behind the call and the older ones stay at the bottom of the stack until it is
shallower than the call left it. A return to the depth of the call finds nothing above
them, so it goes behind the call and leaves the older ones.
-/

theorem suffix_after (hcalls : (s.before i).calls = true)
    (hdeep : forall k, i ≤ k -> k < j ->
      (s.before i).stack.depth + 1 ≤ (s.after k).stack.depth)
    (k : Nat) (hik : i ≤ k) (hkj : k < j) :
    ((s.before i).pc + 2) :: (s.before i).stack.entries <:+ (s.after k).stack.entries := by
  induction k, hik using Nat.le_induction with
  | base =>
      rw [after, Machine.entries_cycled_of_calls hcalls]
  | succ k hik ih =>
      have hbefore := ih (Nat.lt_of_succ_lt hkj)
      rw [← stack_before_succ] at hbefore
      exact Machine.suffix_cycled hbefore (hdeep (k + 1) (Nat.le_succ_of_le hik) hkj)

theorem resumes_behind_call (hij : i < j) (hcalls : (s.before i).calls = true)
    (hdeep : forall k, i ≤ k -> k < j ->
      (s.before i).stack.depth + 1 ≤ (s.after k).stack.depth)
    (hreturns : (s.before j).returns = true)
    (hdepth : (s.after j).stack.depth = (s.before i).stack.depth) :
    (s.after j).pc = (s.before i).pc + 2 ∧
      (s.after j).stack.entries = (s.before i).stack.entries := by
  cases j with
  | zero => exact absurd hij (Nat.not_lt_zero i)
  | succ j =>
      have hbottom := s.suffix_after hcalls hdeep j (Nat.le_of_lt_succ hij) (Nat.lt_succ_self j)
      rw [← stack_before_succ, Machine.entries_of_returns hreturns] at hbottom
      have hlength : ((s.before i).stack.entries.length + 1) =
          (s.after (j + 1)).stack.entries.length + 1 :=
        congrArg Nat.succ hdepth.symm
      have hsame := List.cons.inj (hbottom.eq_of_length hlength)
      exact ⟨hsame.1.symm, hsame.2.symm⟩

/-!
## Calls in progress
-/

theorem depth_before (n : Nat) :
    (s.before n).stack.depth + Nat.count (fun k => (s.before k).returns = true) n =
      s.machine.stack.depth + Nat.count (fun k => (s.before k).calls = true) n := by
  induction n with
  | zero => exact congrArg (fun stack => CallStack.depth stack + 0) (stack_changed _ _)
  | succ n ih =>
      have hcycle := (s.before n).depth_cycled
      rw [Nat.count_succ, Nat.count_succ, stack_before_succ, after]
      lia

/-- If a cycle executes a call, the calls in progress stay more than before it, and a
return brings them back to that number, then it goes behind the call, and the stack is
the one before the call. At any time the calls in progress are those at the start, the
executed calls added and the executed returns taken away. -/
theorem calls_pair_with_returns (s : Session) :
    (forall i j, i < j -> (s.before i).calls = true ->
      (forall k, i ≤ k -> k < j ->
        (s.before i).stack.depth + 1 ≤ (s.after k).stack.depth) ->
      (s.before j).returns = true ->
      (s.after j).stack.depth = (s.before i).stack.depth ->
        (s.after j).pc.toNat = (s.before i).pc.toNat + 2 ∧
          (s.after j).stack.entries = (s.before i).stack.entries) ∧
    forall n,
      (s.before n).stack.depth + Nat.count (fun k => (s.before k).returns = true) n =
        s.machine.stack.depth + Nat.count (fun k => (s.before k).calls = true) n := by
  refine ⟨?_, s.depth_before⟩
  intro i j hij hcalls hdeep hreturns hdepth
  rcases s.resumes_behind_call hij hcalls hdeep hreturns hdepth with ⟨hpc, hstack⟩
  rw [hpc]
  exact ⟨Machine.toNat_next (Machine.pc_le_of_calls hcalls), hstack⟩

/-- A call inside a call and the return of each, at the start of memory. Before each cycle
the host presses a key, and tries one that does not exist. -/
def nestedCalls : Session where
  machine :=
    { Machine.powerOn with
      memory := Bytes.write (Bytes.zeros 4096) 0
        [0x20, 0x04, 0x00, 0xE0, 0x20, 0x08, 0x00, 0xEE, 0x00, 0xEE]
      pc := 0 }
  changes k := [(k, true), (16, true)]

theorem nestedCalls_paired :
    (nestedCalls.before 0).calls = true ∧ (nestedCalls.before 1).calls = true ∧
    (nestedCalls.before 3).returns = true ∧
    (nestedCalls.after 3).pc.toNat = (nestedCalls.before 0).pc.toNat + 2 ∧
    (nestedCalls.after 3).stack.entries = (nestedCalls.before 0).stack.entries := by
  have hcalls : (nestedCalls.before 0).calls = true := by decide +kernel
  have hinner : (nestedCalls.before 1).calls = true := by decide +kernel
  have hdeep : ∀ k < 3, (nestedCalls.before 0).stack.depth + 1 ≤
      (nestedCalls.after k).stack.depth := by decide +kernel
  have hreturns : (nestedCalls.before 3).returns = true := by decide +kernel
  have hdepth : (nestedCalls.after 3).stack.depth = (nestedCalls.before 0).stack.depth := by
    decide +kernel
  exact ⟨hcalls, hinner, hreturns,
    (calls_pair_with_returns nestedCalls).1 0 3 (by decide) hcalls (fun k _ hk => hdeep k hk)
      hreturns hdepth⟩

end Session

end Chip8
