import Chip8.Proofs.Cycle.WriteSets
import Chip8.Proofs.Runner.Turn

/-!
# What a cycle tells its host

Behind a cycle its host finds the drawing flag and the requests. Both are made anew in every
cycle, whatever the one before left, and they tell exactly the executed words that concern a
host. No cycle changes the screen without setting the flag, so a host that copies the screen
only where the flag is set is never behind.
-/

namespace Chip8

namespace Opcode

def ClearsScreen (word : UInt16) : Prop :=
  family word = 0x0 ∧ (low word).val = 0x0

end Opcode

namespace Instruction

variable {word : UInt16} {instruction : Instruction}

theorem eq_clearScreen_iff (hspelled : instruction.SpelledBy word) :
    instruction = .clearScreen ↔ Opcode.ClearsScreen word := by
  constructor
  · intro h
    subst h
    exact hspelled
  · intro hclears
    exact hspelled.unique hclears

theorem clears_or_draws_iff (hspelled : instruction.SpelledBy word) :
    (instruction = .clearScreen ∨ exists x y rows, instruction = .draw x y rows) ↔
      Opcode.WritesScreen word := by
  constructor
  · intro h
    rcases h with rfl | ⟨x, y, rows, rfl⟩
    · exact Or.inl hspelled
    · exact Or.inr hspelled.1
  · intro h
    rcases h with hclears | hfamily
    · exact Or.inl (hspelled.unique hclears)
    · exact Or.inr ⟨_, _, _, hspelled.unique ⟨hfamily, rfl, rfl, rfl⟩⟩

end Instruction

namespace Machine

variable {m : Machine} {word : UInt16}

def AsksForKey (m : Machine) : Prop :=
  m.Executes (Opcode.IsDevice 0x0A) ∧ forall key, m.keys.get key = false

inductive Asks (m : Machine) : List Request → Prop where
  | clear (hclears : m.Executes Opcode.ClearsScreen) (hkey : ¬ m.AsksForKey) :
      Asks m [.clearDisplay]
  | key (hclears : ¬ m.Executes Opcode.ClearsScreen) (hkey : m.AsksForKey) :
      Asks m [.awaitKey]
  | nothing (hclears : ¬ m.Executes Opcode.ClearsScreen) (hkey : ¬ m.AsksForKey) :
      Asks m []

structure Signals (m : Machine) : Prop where
  drawn : m.cycled.drawn = true ↔ m.Executes Opcode.WritesScreen
  clear : m.cycled.outbox.requests = [.clearDisplay] ↔ m.Executes Opcode.ClearsScreen
  key : m.cycled.outbox.requests = [.awaitKey] ↔ m.AsksForKey
  nothing : m.cycled.outbox.requests = [] ↔
    ¬ m.Executes Opcode.ClearsScreen ∧ ¬ m.AsksForKey
  single : m.cycled.outbox.requests.length ≤ 1
  changed : forall k, forall hk : k < 2048,
    m.cycled.screen[k] ≠ m.screen[k] -> m.cycled.drawn = true

variable {requests : List Request}

theorem Asks.eq_clear_iff (h : m.Asks requests) :
    requests = [.clearDisplay] ↔ m.Executes Opcode.ClearsScreen := by
  cases h with
  | clear hclears _ => exact iff_of_true rfl hclears
  | key hclears _ | nothing hclears _ => exact iff_of_false (by decide) hclears

theorem Asks.eq_key_iff (h : m.Asks requests) : requests = [.awaitKey] ↔ m.AsksForKey := by
  cases h with
  | key _ hkey => exact iff_of_true rfl hkey
  | clear _ hkey | nothing _ hkey => exact iff_of_false (by decide) hkey

theorem Asks.eq_nil_iff (h : m.Asks requests) :
    requests = [] ↔ ¬ m.Executes Opcode.ClearsScreen ∧ ¬ m.AsksForKey := by
  cases h with
  | nothing hclears hkey => exact iff_of_true rfl ⟨hclears, hkey⟩
  | clear hclears _ => exact iff_of_false (by decide) fun hneither => hneither.1 hclears
  | key _ hkey => exact iff_of_false (by decide) fun hneither => hneither.2 hkey

theorem Asks.length_le (h : m.Asks requests) : requests.length ≤ 1 := by
  cases h <;> decide

/-!
## One cycle
-/

theorem executes_iff {kind : UInt16 → Prop} (h : m.executedWord? = some word) :
    m.Executes kind ↔ kind word := by
  constructor
  · intro hexecutes
    rcases hexecutes with ⟨executed, hexecuted, hkind⟩
    rw [h] at hexecuted
    cases hexecuted
    exact hkind
  · intro hkind
    exact ⟨word, h, hkind⟩

theorem not_executes_of_idle {kind : UInt16 → Prop} (h : m.executedWord? = none) :
    ¬ m.Executes kind := by
  intro hexecutes
  rcases hexecutes with ⟨word, hexecuted, _⟩
  rw [h] at hexecuted
  cases hexecuted

theorem asksForKey_iff (h : m.executedWord? = some word) : m.AsksForKey ↔ m.Waits word := by
  rw [AsksForKey, executes_iff h, Waits, Keypad.lowestDown?_eq_none_iff]
  exact and_assoc

theorem drawn_cycled_iff (m : Machine) :
    m.cycled.drawn = true ↔ m.Executes Opcode.WritesScreen := by
  cases hexecuted : m.executedWord? with
  | none =>
      rcases cycled_of_idle hexecuted with ⟨pc, opcode, delayTimer, soundTimer, hcycled⟩
      rw [hcycled]
      exact iff_of_false Bool.false_ne_true (not_executes_of_idle hexecuted)
  | some word =>
      rcases exists_of_executedWord? hexecuted with ⟨instruction, _, hspelled, _, hcycled⟩
      rw [hcycled, drawn_executed_iff, Instruction.clears_or_draws_iff hspelled,
        executes_iff hexecuted]

theorem asks_cycled (m : Machine) : m.Asks m.cycled.outbox.requests := by
  cases hexecuted : m.executedWord? with
  | none =>
      rcases cycled_of_idle hexecuted with ⟨pc, opcode, delayTimer, soundTimer, hcycled⟩
      rw [hcycled]
      exact .nothing (not_executes_of_idle hexecuted)
        fun hkey => not_executes_of_idle hexecuted hkey.1
  | some word =>
      rcases exists_of_executedWord? hexecuted with ⟨instruction, _, hspelled, _, hcycled⟩
      have hkey := asksForKey_iff hexecuted
      have hclears : m.Executes Opcode.ClearsScreen ↔ instruction = .clearScreen :=
        (executes_iff hexecuted).trans (Instruction.eq_clearScreen_iff hspelled).symm
      rw [hcycled]
      by_cases hwaits : m.Waits word
      · have hother : instruction ≠ .clearScreen := by
          intro hclear
          subst hclear
          have hfamily := hwaits.1
          rw [hspelled.1] at hfamily
          cases hfamily
        rw [requests_executed_of_waits hspelled hwaits]
        exact .key (mt hclears.mp hother) (hkey.mpr hwaits)
      · rw [requests_executed_of_not_waits hspelled hwaits]
        split
        · rename_i hclear
          exact .clear (hclears.mpr hclear) (mt hkey.mp hwaits)
        · rename_i hother
          exact .nothing (mt hclears.mp hother) (mt hkey.mp hwaits)

theorem screen_cycled_of_not_drawn (h : ¬ m.cycled.drawn = true) :
    m.cycled.screen = m.screen := by
  by_contra hchanged
  exact h (m.drawn_cycled_iff.mpr (m.confined.screen hchanged))

theorem signals (m : Machine) : m.Signals where
  drawn := m.drawn_cycled_iff
  clear := m.asks_cycled.eq_clear_iff
  key := m.asks_cycled.eq_key_iff
  nothing := m.asks_cycled.eq_nil_iff
  single := m.asks_cycled.length_le
  changed k hk hchanged := by
    by_contra hdrawn
    exact hchanged (by rw [screen_cycled_of_not_drawn hdrawn])

end Machine

/-!
## Copies of the screen
-/

namespace Operation

/-- The copy of the screen that a host holds behind an operation, if it renews it behind
cycles that set the drawing flag and at no other time. -/
def copied (operation : Operation) (m : Machine) (copy : Screen) : Screen :=
  match operation with
  | .cycle _ => if (operation.after m).drawn then (operation.after m).screen else copy
  | _ => copy

def copiedAll : List Operation → Machine → Screen → Screen
  | [], _, copy => copy
  | operation :: rest, m, copy =>
      copiedAll rest (operation.after m) (operation.copied m copy)

variable {m : Machine}

theorem screen_after_of_undrawn {outbox : Outbox}
    (h : ¬ ((cycle outbox).after m).drawn = true) :
    ((cycle outbox).after m).screen = m.screen := by
  rw [after_cycle] at h ⊢
  exact Machine.screen_cycled_of_not_drawn (m := { m with outbox }) h

theorem copied_screen {operation : Operation} (hreset : operation ≠ .reset) :
    operation.copied m m.screen = (operation.after m).screen := by
  cases operation with
  | reset => exact absurd rfl hreset
  | load program =>
      rw [after_load]
      split <;> rfl
  | loadFile content =>
      rw [after_loadFile]
      split
      · rw [after_load]
        split <;> rfl
      · rfl
  | press key down =>
      rw [after_press]
      split <;> rfl
  | countDown | random => rfl
  | cycle outbox =>
      unfold copied
      dsimp only
      split
      · rfl
      · rename_i hundrawn
        exact (screen_after_of_undrawn hundrawn).symm

theorem copiedAll_screen (operations : List Operation)
    (hreset : ∀ operation ∈ operations, operation ≠ .reset) (m : Machine) :
    copiedAll operations m m.screen = (afterAll operations m).screen := by
  induction operations generalizing m with
  | nil => rfl
  | cons operation rest ih =>
      rw [copiedAll, copied_screen (hreset operation List.mem_cons_self)]
      exact ih (fun other hother => hreset other (List.mem_cons_of_mem operation hother)) _

/-- Behind every cycle, also a failing one, the drawing flag is set exactly if a word was
executed that clears the screen or draws on it, and the outbox asks to clear the display
exactly if the former, for a key exactly if a word was executed that found none down, and for
nothing otherwise. Every change of the screen sets the flag, so a host that holds the screen
at the start and copies it only where the flag is set holds the present screen at any time,
unless it resets the machine. -/
theorem signals_tell_cycles :
    (forall m : Machine, m.Signals) ∧
    (forall (operations : List Operation) (m : Machine),
      (∀ operation ∈ operations, operation ≠ .reset) ->
        copiedAll operations m m.screen = (afterAll operations m).screen) :=
  ⟨Machine.signals, fun operations m hreset => copiedAll_screen operations hreset m⟩

/-- A machine whose next words draw the first of its bytes, wait for a key and return from no
call. -/
def drawingOnce : Machine :=
  { Machine.powerOn with
    memory := Bytes.write (Bytes.zeros 4096) 0 [0xD0, 0x01, 0xF0, 0x0A, 0x00, 0xEE]
    pc := 0
    outbox := Outbox.single .clearDisplay }

def copyingHost : List Operation :=
  [.cycle (Outbox.single .awaitKey), .cycle Outbox.empty, .load [0x12, 0x00], .press 7 true,
    .cycle (Outbox.single .clearDisplay), .random, .cycle Outbox.empty]

theorem drawingOnce_copied :
    (∀ operation ∈ copyingHost, operation ≠ .reset) ∧
    copiedAll copyingHost drawingOnce drawingOnce.screen =
      (afterAll copyingHost drawingOnce).screen ∧
    (afterAll copyingHost drawingOnce).screen.isLit 0 = true := by
  have hreset : ∀ operation ∈ copyingHost, operation ≠ .reset := by
    intro operation hmember hsame
    subst hsame
    simp [copyingHost] at hmember
  have hlit : (afterAll copyingHost drawingOnce).screen.isLit 0 = true := by decide +kernel
  exact ⟨hreset, signals_tell_cycles.2 copyingHost drawingOnce hreset, hlit⟩

end Operation

end Chip8
