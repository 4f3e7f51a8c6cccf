import Chip8.Proofs.Host.Calls
import Chip8.Proofs.Host.KeyWait
import Chip8.Proofs.Runner.Incidentals

/-!
# Key changes

Only the two skips on a key and the wait for one read the keys, and no cycle changes them.
So a key change can be moved across the cycles that execute none of these words, and the
keys make no difference to a run before it executes the first of them. A skip on a number
that no key has fails before it reads a key.
-/

namespace Chip8

namespace Opcode

def ReadsKeys (word : UInt16) : Prop :=
  (family word = 0xE ∧ ((low word).val = 0xE ∨ (low word).val = 0x1)) ∨ IsDevice 0x0A word

end Opcode

namespace Keypad

variable {keys : Keypad} {key : Nat}

theorem isDown_of_lt (h : key < 16) : keys.isDown key = .ok keys[key] :=
  dif_pos h

theorem isDown_of_le (h : 16 ≤ key) : keys.isDown key = .error (.noSuchKey key) :=
  dif_neg (Nat.not_lt_of_le h)

end Keypad

namespace Instruction

open Machine

variable {m : Machine} {word : UInt16} {instruction : Instruction}

/-!
## One instruction

An instruction that does not read the keys passes them through. Its failure never depends
on them: the number of a key is checked, whether the key is down is not.
-/

inductive ReadsKeys : Instruction → Prop where
  | keyDown (x : Register) : ReadsKeys (.skipIf (.keyDown x))
  | keyUp (x : Register) : ReadsKeys (.skipIf (.keyUp x))
  | awaitKey (x : Register) : ReadsKeys (.awaitKey x)

theorem ReadsKeys.of_spelledBy (h : instruction.ReadsKeys) (hspelled : instruction.SpelledBy word) :
    Opcode.ReadsKeys word := by
  cases h with
  | keyDown x => exact Or.inl ⟨hspelled.1, Or.inl hspelled.2.1⟩
  | keyUp x => exact Or.inl ⟨hspelled.1, Or.inr hspelled.2.1⟩
  | awaitKey x => exact Or.inr ⟨hspelled.1, hspelled.2.1⟩

theorem failure?_withKeys (instruction : Instruction) (keys : Keypad) :
    instruction.failure? { m with keys } = instruction.failure? m := by
  cases instruction with
  | skipIf condition =>
      cases condition with
      | keyDown x | keyUp x =>
          rcases Nat.lt_or_ge (m.registers.get x).toNat 16 with hkey | hbeyond
          · simp only [failure?, Condition.holds, Keypad.isDown_of_lt hkey, Except.map]
          · simp only [failure?, Condition.holds, Keypad.isDown_of_le hbeyond, Except.map]
      | isByte x byte | isNotByte x byte | same x y | differ x y => rfl
  | _ => rfl

theorem target_withKeys (h : ¬ instruction.ReadsKeys) (keys : Keypad) :
    instruction.target { m with keys } = instruction.target m := by
  cases instruction with
  | skipIf condition =>
      cases condition with
      | keyDown x => exact absurd (.keyDown x) h
      | keyUp x => exact absurd (.keyUp x) h
      | isByte x byte | isNotByte x byte | same x y | differ x y => rfl
  | awaitKey x => exact absurd (.awaitKey x) h
  | _ => rfl

theorem effect_withKeys (h : ¬ instruction.ReadsKeys) (keys : Keypad) :
    instruction.effect { m with keys } = { instruction.effect m with keys } := by
  cases instruction with
  | awaitKey x => exact absurd (.awaitKey x) h
  | _ => rfl

end Instruction

namespace Machine

variable {m other ready : Machine} {word : UInt16} {instruction : Instruction} {n : Nat}

def SameButKeys (m other : Machine) : Prop :=
  exists keys, other = { m with keys }

theorem SameButKeys.symm (h : m.SameButKeys other) : other.SameButKeys m := by
  rcases h with ⟨keys, rfl⟩
  exact ⟨m.keys, rfl⟩

theorem SameButKeys.trans {last : Machine} (h : m.SameButKeys other)
    (h' : other.SameButKeys last) : m.SameButKeys last := by
  rcases h with ⟨_, rfl⟩
  rcases h' with ⟨keys, rfl⟩
  exact ⟨keys, rfl⟩

/-!
## One cycle
-/

theorem executed_withKeys (h : ¬ instruction.ReadsKeys) (keys : Keypad) :
    executed { m with keys } word instruction = { m.executed word instruction with keys } := by
  have heffect := Instruction.effect_withKeys (m := m.fetched word) h keys
  have htarget := Instruction.target_withKeys (m := m) h keys
  unfold executed
  rw [htarget]
  exact congrArg (fun machine : Machine => aged { machine with pc := instruction.target m }) heffect

theorem cycle_withKeys (h : ¬ m.Executes Opcode.ReadsKeys) (keys : Keypad) :
    Failure.Related (fun after other => other = { after with keys })
      m.cycle (cycle { m with keys }) := by
  refine related_cycle rfl rfl (fun instruction => Instruction.failure?_withKeys instruction keys)
    (fun _ => rfl) (fun _ => rfl) (fun _ => rfl) ?_
  intro word instruction hexecuted hspelled
  have hblind : ¬ instruction.ReadsKeys := fun hreads =>
    h ⟨word, hexecuted, hreads.of_spelledBy hspelled⟩
  exact executed_withKeys hblind keys

theorem not_executes_of_fetched {kind : UInt16 → Prop}
    (h : forall word, m.memory.word? m.pc = some word -> ¬ kind word) : ¬ m.Executes kind := by
  intro hexecutes
  rcases hexecutes with ⟨word, hexecuted, hkind⟩
  rcases exists_of_executedWord? hexecuted with ⟨_, hword, _⟩
  exact h word hword hkind

theorem cycled_of_related {relation : Machine → Machine → Prop}
    (h : Failure.Related relation m.cycle other.cycle) : relation m.cycled other.cycled :=
  h.stateOf

theorem cycle_of_sameButKeys (hsame : m.SameButKeys other)
    (h : ¬ m.Executes Opcode.ReadsKeys) :
    Failure.Related SameButKeys m.cycle other.cycle := by
  rcases hsame with ⟨keys, rfl⟩
  exact (cycle_withKeys h keys).imp fun _ _ hother => ⟨keys, hother⟩

/-!
## Moving a key change
-/

theorem cycle_of_pressed {key : Fin 16} {down : Bool}
    (hready : press key.val down m = .ok () ready) (h : ¬ m.Executes Opcode.ReadsKeys) :
    Failure.Related (fun after other => press key.val down after = .ok () other)
      m.cycle ready.cycle := by
  rw [press_eq] at hready
  cases hready
  have hkeys := m.keys_cycled
  have hrelated := cycle_withKeys h (Cells.put m.keys key down)
  -- The cycle leaves the keys alone, so they are changed from what they were before it.
  unfold cycled at hkeys
  generalize m.cycle = result at hkeys hrelated ⊢
  generalize cycle { m with keys := Cells.put m.keys key down } = pressed at hrelated ⊢
  rw [← hkeys] at hrelated
  cases hrelated with
  | ok hother =>
      rw [hother]
      exact .ok (press_eq key down _)
  | error hother =>
      rw [hother]
      exact .error (press_eq key down _)

theorem press_afterCycles {key : Fin 16} {down : Bool}
    (hready : press key.val down m = .ok () ready)
    (h : forall i, i < n -> ¬ (m.afterCycles i).Executes Opcode.ReadsKeys) :
    press key.val down (m.afterCycles n) = .ok () (ready.afterCycles n) := by
  induction n with
  | zero => exact hready
  | succ n ih =>
      have hbefore := ih fun i hi => h i (Nat.lt_succ_of_lt hi)
      rw [afterCycles_succ, afterCycles_succ]
      exact cycled_of_related (cycle_of_pressed hbefore (h n (Nat.lt_succ_self n)))

end Machine

namespace Session

open Machine

variable {s t : Session} {n : Nat}

/-!
## Two sessions with different keys
-/

theorem sameButKeys_changed (m : Machine) (changes : List (Nat × Bool)) :
    m.SameButKeys (changed m changes) := by
  induction changes generalizing m with
  | nil => exact ⟨m.keys, rfl⟩
  | cons change rest ih =>
      have hpress : m.SameButKeys ((Operation.press change.1 change.2).after m) := by
        rw [Operation.after_press]
        split
        · exact ⟨_, rfl⟩
        · exact ⟨m.keys, rfl⟩
      exact hpress.trans (ih _)

theorem sameButKeys_changed_changed {m other : Machine} (h : m.SameButKeys other)
    (changes otherChanges : List (Nat × Bool)) :
    (changed m changes).SameButKeys (changed other otherChanges) :=
  (sameButKeys_changed m changes).symm.trans (h.trans (sameButKeys_changed other otherChanges))

theorem sameButKeys_before (hsame : s.machine.SameButKeys t.machine)
    (h : forall i, i < n -> ¬ (s.before i).Executes Opcode.ReadsKeys) :
    (s.before n).SameButKeys (t.before n) := by
  induction n with
  | zero => exact sameButKeys_changed_changed hsame _ _
  | succ n ih =>
      have hbefore := ih fun i hi => h i (Nat.lt_succ_of_lt hi)
      have hcycle := cycle_of_sameButKeys hbefore (h n (Nat.lt_succ_self n))
      exact sameButKeys_changed_changed (cycled_of_related hcycle) _ _

/-- A cycle that fetches no word which reads the keys, or runs outside memory, comes to the
same whether a key is changed before it or behind it. So a key change can be moved across any
number of cycles that execute no such word, each of which ends as before. And two sessions
that differ in the keys, at the start and in all later changes, go on alike apart from the
keys up to the first executed word that reads them. -/
theorem keys_matter_when_read :
    (forall (m : Machine) (key : Fin 16) (down : Bool),
      exists ready, press key.val down m = .ok () ready ∧
        ((forall word, m.memory.word? m.pc = some word -> ¬ Opcode.ReadsKeys word) ->
          Failure.Related (fun after other => press key.val down after = .ok () other)
            m.cycle ready.cycle) ∧
        (forall n, (forall i, i < n -> ¬ (m.afterCycles i).Executes Opcode.ReadsKeys) ->
          press key.val down (m.afterCycles n) = .ok () (ready.afterCycles n) ∧
          forall i, i < n ->
            Failure.Related (fun after other => press key.val down after = .ok () other)
              (m.afterCycles i).cycle (ready.afterCycles i).cycle)) ∧
    (forall (s t : Session) (n : Nat), s.machine.SameButKeys t.machine ->
      (forall i, i < n -> ¬ (s.before i).Executes Opcode.ReadsKeys) ->
        (s.before n).SameButKeys (t.before n) ∧
        forall i, i < n ->
          Failure.Related SameButKeys (s.before i).cycle (t.before i).cycle) := by
  constructor
  · intro m key down
    have hready := press_eq key down m
    refine ⟨_, hready, fun h => cycle_of_pressed hready (not_executes_of_fetched h), ?_⟩
    intro n h
    refine ⟨press_afterCycles hready h, fun i hi => ?_⟩
    have hbefore := press_afterCycles hready fun j hj => h j (Nat.lt_trans hj hi)
    exact cycle_of_pressed hbefore (h i hi)
  · intro s t n hsame h
    refine ⟨sameButKeys_before hsame h, fun i hi => ?_⟩
    have hbefore := sameButKeys_before hsame fun j hj => h j (Nat.lt_trans hj hi)
    exact cycle_of_sameButKeys hbefore (h i hi)

/-- A machine that sets a register to ten and then skips a word if the key ten is down. -/
def listening : Machine :=
  { Machine.powerOn with
    memory := Bytes.write (Bytes.zeros 4096) 0 [0x60, 0x0A, 0xE0, 0x9E]
    pc := 0 }

def prompted : Machine :=
  Failure.stateOf (press 10 true listening)

def quiet : Session where
  machine := listening
  changes _ := []

def busy : Session where
  machine := listening
  changes k := [(k, true), (10, true)]

theorem listening_heeds_key :
    (exists ready, press 10 true listening = .ok () ready ∧
      Failure.Related (fun after other => press 10 true after = .ok () other)
        listening.cycle ready.cycle ∧
      press 10 true (listening.afterCycles 1) = .ok () (ready.afterCycles 1) ∧
      (ready.afterCycles 2).pc = 6 ∧ (listening.afterCycles 2).pc = 4) ∧
    (quiet.before 1).SameButKeys (busy.before 1) ∧
    (quiet.before 2).pc = 4 ∧ (busy.before 2).pc = 6 := by
  have hword : listening.memory.word? listening.pc = some 0x600A := by decide +kernel
  have hblind : forall word, listening.memory.word? listening.pc = some word ->
      ¬ Opcode.ReadsKeys word := by
    intro word hfetched
    rw [hword] at hfetched
    cases hfetched
    rintro (⟨hfamily, _⟩ | ⟨hfamily, _⟩) <;> cases hfamily
  have hexecutes : forall i, i < 1 -> ¬ (listening.afterCycles i).Executes Opcode.ReadsKeys := by
    intro i hi
    rw [Nat.lt_one_iff.mp hi]
    exact not_executes_of_fetched hblind
  have hbefore : forall i, i < 1 -> ¬ (quiet.before i).Executes Opcode.ReadsKeys := by
    intro i hi
    rw [Nat.lt_one_iff.mp hi]
    exact not_executes_of_fetched hblind
  rcases keys_matter_when_read.1 listening 10 true with ⟨ready, hready, hcycle, hmoved⟩
  have hprompted : prompted = ready := congrArg Failure.stateOf hready
  have hlate : (prompted.afterCycles 2).pc = 6 ∧ (listening.afterCycles 2).pc = 4 ∧
      (quiet.before 2).pc = 4 ∧ (busy.before 2).pc = 6 := by
    decide +kernel
  rw [hprompted] at hlate
  exact ⟨⟨ready, hready, hcycle hblind, (hmoved 1 hexecutes).1, hlate.1, hlate.2.1⟩,
    (keys_matter_when_read.2 quiet busy 1 ⟨_, rfl⟩ hbefore).1, hlate.2.2⟩

end Session

end Chip8
