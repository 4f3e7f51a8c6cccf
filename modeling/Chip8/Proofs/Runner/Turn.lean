import Chip8.Proofs.Cycle.Succession
import Chip8.Proofs.Instruction.Failures
import Chip8.Proofs.Instruction.Footprint
import Chip8.Runner

/-!
# One cycle of a runner

A runner looks at a machine only behind its cycle, at the requests, the drawing flag, the
noted word and the program counter. Here the same is told from the word that the cycle
fetches: whether the run ends, why, and what comes to the terminal.
-/

namespace Chip8

theorem Failure.ite_apply {σ α : Type} (condition : Prop) [Decidable condition]
    (first second : EStateM Failure σ α) (s : σ) :
    (if condition then first else second) s = if condition then first s else second s := by
  split <;> rfl

namespace Machine

variable {m : Machine} {word : UInt16} {instruction : Instruction}

def Waits (m : Machine) (word : UInt16) : Prop :=
  Opcode.family word = 0xF ∧ (Opcode.byte word).toNat = 0x0A ∧
    m.keys.lowestDown? = none

def JumpsToItself (m : Machine) (word : UInt16) : Prop :=
  Opcode.family word = 0x1 ∧ (Opcode.address word).val = m.pc.toNat

instance : Decidable (m.Waits word) :=
  inferInstanceAs (Decidable (_ ∧ _ ∧ _))

instance : Decidable (m.JumpsToItself word) :=
  inferInstanceAs (Decidable (_ ∧ _))

def halt? (m : Machine) : Option Halt :=
  match m.memory.word? m.pc with
  | none => some .counterOutside
  | some word =>
      if m.Waits word then some .awaitingKey
      else if m.JumpsToItself word then some .finished
      else none

/-- What the next cycle brings to a terminal that shows the screen: a cleared screen is
cleared twice on the terminal, a sprite shows the screen with it, and nothing else is
seen. -/
def frame (m : Machine) : String :=
  match m.executedWord? with
  | none => ""
  | some word =>
      if Opcode.family word = 0x0 ∧ (Opcode.low word).val = 0x0 then
        Runner.clearSequence ++ (Runner.clearSequence ++ Screen.blank.picture)
      else if Opcode.family word = 0xD then
        Runner.clearSequence ++ m.cycled.screen.picture
      else ""

theorem halt?_ne_cycleLimit (m : Machine) : m.halt? ≠ some .cycleLimit := by
  intro h
  unfold halt? at h
  split at h
  · cases h
  · split at h
    · cases h
    · split at h <;> cases h

theorem halt?_of_waits (hword : m.memory.word? m.pc = some word) (hwaits : m.Waits word) :
    m.halt? = some .awaitingKey := by
  simp only [halt?, hword, hwaits, if_true]

theorem halt?_of_not_waits (hword : m.memory.word? m.pc = some word)
    (hwaits : ¬ m.Waits word) :
    m.halt? = if m.JumpsToItself word then some .finished else none := by
  simp only [halt?, hword, hwaits, if_false]

/-!
## What an executed instruction leaves to the runner

A machine that is still at the word it executed as a jump was told to stay there. A request
for a key means that the word waits for one, and the drawing flag that the screen was
cleared or drawn on.
-/

theorem jumpedToItself_executed (hspelled : instruction.SpelledBy word) :
    Runner.jumpedToItself (m.executed word instruction) m.pc .executed =
      decide (m.JumpsToItself word) := by
  have hopcode : (m.executed word instruction).opcode = word := Instruction.opcode_effect
  unfold Runner.jumpedToItself JumpsToItself
  rw [hopcode]
  by_cases hfamily : Opcode.family word = 0x1
  · have hjump : instruction = .jump (Opcode.address word) :=
      hspelled.unique ⟨hfamily, rfl⟩
    subst hjump
    have hpc : (m.executed word (.jump (Opcode.address word))).pc =
        Address.toWord (Opcode.address word) := rfl
    have hsame : Address.toWord (Opcode.address word) = m.pc ↔
        (Opcode.address word).val = m.pc.toNat := by
      rw [← UInt16.toNat_inj, Address.toNat_toWord]
    simp only [hfamily, hpc, beq_self_eq_true, Bool.true_and, Bool.and_true, true_and,
      beq_eq_decide, decide_eq_decide]
    exact hsame
  · simp [hfamily]

theorem requests_executed_of_waits (hspelled : instruction.SpelledBy word)
    (hwaits : m.Waits word) :
    (m.executed word instruction).outbox.requests = [.awaitKey] := by
  have hawait : instruction = .awaitKey (Opcode.x word) :=
    hspelled.unique ⟨hwaits.1, hwaits.2.1, rfl⟩
  subst hawait
  have heffect : (Instruction.awaitKey (Opcode.x word)).effect (m.fetched word) =
      { m.fetched word with outbox := Outbox.single .awaitKey } := by
    have hnone : (m.fetched word).keys.lowestDown? = none := hwaits.2.2
    simp only [Instruction.effect, hnone]
  rw [executed, heffect]
  rfl

theorem requests_executed_of_not_waits (hspelled : instruction.SpelledBy word)
    (hwaits : ¬ m.Waits word) :
    (m.executed word instruction).outbox.requests =
      if instruction = .clearScreen then [.clearDisplay] else [] := by
  by_cases hclear : instruction = .clearScreen
  · subst hclear
    rfl
  · rw [if_neg hclear]
    have hempty : (instruction.effect (m.fetched word)).outbox = Outbox.empty := by
      cases instruction with
      | awaitKey x =>
          cases hlowest : m.keys.lowestDown? with
          | none => exact absurd ⟨hspelled.1, hspelled.2.1, hlowest⟩ hwaits
          | some key =>
              have hsome : (m.fetched word).keys.lowestDown? = some key := hlowest
              simp only [Instruction.effect, hsome]
              rfl
      | _ => exact Instruction.outbox_effect_of_ne hclear fun x heq => by cases heq
    exact congrArg Outbox.requests hempty

theorem drawn_executed_iff :
    (m.executed word instruction).drawn = true ↔
      instruction = .clearScreen ∨ exists x y rows, instruction = .draw x y rows := by
  constructor
  · intro hdrawn
    by_contra hneither
    rw [not_or, not_exists] at hneither
    have hsame := Instruction.drawn_effect_of_ne (m := m.fetched word) hneither.1
      fun x y rows heq => hneither.2 x ⟨y, rows, heq⟩
    have hnot : (m.executed word instruction).drawn = false := hsame
    rw [hdrawn] at hnot
    cases hnot
  · rintro (rfl | ⟨x, y, rows, rfl⟩) <;> rfl

theorem frame_of_executed (hexecuted : m.executedWord? = some word)
    (hspelled : instruction.SpelledBy word)
    (hcycled : m.cycled = m.executed word instruction) :
    m.frame =
      (if instruction = .clearScreen then Runner.clearSequence else "") ++
        if (m.executed word instruction).drawn = true then
          Runner.clearSequence ++ (m.executed word instruction).screen.picture
        else "" := by
  have hclear : (Opcode.family word = 0x0 ∧ (Opcode.low word).val = 0x0) ↔
      instruction = .clearScreen :=
    ⟨fun hdigits => hspelled.unique hdigits, fun heq => by rw [heq] at hspelled; exact hspelled⟩
  have hdraw : Opcode.family word = 0xD ↔ exists x y rows, instruction = .draw x y rows :=
    ⟨fun hfamily => ⟨_, _, _, hspelled.unique ⟨hfamily, rfl, rfl, rfl⟩⟩, fun heq => by
      rcases heq with ⟨x, y, rows, rfl⟩
      exact hspelled.1⟩
  simp only [frame, hexecuted, hclear, hdraw, drawn_executed_iff, hcycled]
  by_cases h : instruction = .clearScreen
  · subst h
    simp only [if_true, true_or]
    rfl
  · by_cases hdrawn : exists x y rows, instruction = .draw x y rows
    · simp only [h, hdrawn, if_true, if_false, or_true, String.empty_append]
    · simp only [h, hdrawn, if_false, or_false, String.empty_append]

end Machine

namespace Runner

variable {r : Runner} {after : Machine} {outcome : Outcome} {failure : Failure}
variable {render : Bool} {text : String}

def advanced (r : Runner) (count : Nat) (machine : Machine) : Runner :=
  { r with machine, cycles := UInt64.ofNat (r.cycles.toNat + count) }

def printed (r : Runner) (text : String) : Runner :=
  { r with terminal := r.terminal ++ text }

@[simp]
theorem machine_advanced (count : Nat) (m : Machine) : (r.advanced count m).machine = m :=
  rfl

theorem toNat_cycles_advanced {count : Nat} {m : Machine}
    (hroom : r.cycles.toNat + count < UInt64.size) :
    (r.advanced count m).cycles.toNat = r.cycles.toNat + count :=
  UInt64.toNat_ofNat_of_lt' hroom

@[simp]
theorem printed_empty : r.printed "" = r := by
  rw [printed, String.append_empty]

theorem printed_printed (first second : String) :
    (r.printed first).printed second = r.printed (first ++ second) := by
  simp only [printed, String.append_assoc]

/-!
## The parts of a cycle

Each way out of a cycle has its equation. A cycle whose requests do not end the run leaves
the rest to the drawing flag and the jump.
-/

theorem countCycle_eq (r : Runner) :
    countCycle r =
      if r.cycles.toNat + 1 < UInt64.size then .ok () (r.advanced 1 r.machine)
      else .error .trap r := by
  have hnext : r.cycles + 1 = UInt64.ofNat (r.cycles.toNat + 1) := by
    rw [UInt64.ofNat_add, UInt64.ofNat_toNat]
    rfl
  simp only [countCycle, Failure.bind_apply, Failure.get_apply]
  split
  · rw [Failure.set_apply, hnext]
    rfl
  · rfl

theorem showScreen_eq (r : Runner) :
    showScreen r = .ok () (r.printed (clearSequence ++ r.machine.screen.picture)) :=
  rfl

theorem serve_clearDisplay (render : Bool) (r : Runner) :
    serve render [.clearDisplay] r =
      .ok none (r.printed (if render then clearSequence else "")) := by
  cases render with
  | true => rfl
  | false => rw [if_neg Bool.false_ne_true, printed_empty]; rfl

theorem runCycle_of_error (hcycle : r.machine.cycle = .error failure after) :
    runCycle render r = .error failure { r with machine := after } := by
  simp only [runCycle, Failure.bind_apply, Failure.get_apply, onMachine_error hcycle]

theorem countCycle_of_room (hroom : r.cycles.toNat + 1 < UInt64.size) :
    countCycle { r with machine := after } = .ok () (r.advanced 1 after) := by
  rw [countCycle_eq, if_pos hroom]
  rfl

theorem runCycle_of_full (hcycle : r.machine.cycle = .ok outcome after)
    (hfull : ¬ r.cycles.toNat + 1 < UInt64.size) :
    runCycle render r = .error .trap { r with machine := after } := by
  simp only [runCycle, Failure.bind_apply, Failure.get_apply, onMachine_ok hcycle,
    countCycle_eq, hfull, if_false]

theorem runCycle_of_ranAway (hcycle : r.machine.cycle = .ok outcome after)
    (hroom : r.cycles.toNat + 1 < UInt64.size) (haway : ranAway outcome = true) :
    runCycle render r = .ok (some .counterOutside) (r.advanced 1 after) := by
  simp only [runCycle, Failure.bind_apply, Failure.get_apply, onMachine_ok hcycle,
    countCycle_of_room hroom, haway, if_true]
  rfl

theorem runCycle_of_awaiting (hcycle : r.machine.cycle = .ok outcome after)
    (hroom : r.cycles.toNat + 1 < UInt64.size) (hinside : ranAway outcome = false)
    (hrequests : after.outbox.requests = [.awaitKey]) :
    runCycle render r = .ok (some .awaitingKey) (r.advanced 1 after) := by
  simp only [runCycle, Failure.bind_apply, Failure.get_apply, onMachine_ok hcycle,
    countCycle_of_room hroom, hinside, Bool.false_eq_true, if_false, machine_advanced,
    hrequests]
  rfl

theorem runCycle_of_served (hcycle : r.machine.cycle = .ok outcome after)
    (hroom : r.cycles.toNat + 1 < UInt64.size) (hinside : ranAway outcome = false)
    (hserve : serve render after.outbox.requests (r.advanced 1 after) =
      .ok none ((r.advanced 1 after).printed text)) :
    runCycle render r =
      .ok (if jumpedToItself after r.machine.pc outcome then some .finished else none)
        ((r.advanced 1 after).printed
          (text ++
            if render && after.drawn then clearSequence ++ after.screen.picture else "")) := by
  simp only [runCycle, Failure.bind_apply, Failure.get_apply, onMachine_ok hcycle,
    countCycle_of_room hroom, hinside, Bool.false_eq_true, if_false, machine_advanced,
    hserve]
  rw [Failure.ite_apply]
  split
  · rename_i hdrawn
    have hshown : (render && after.drawn) = true := hdrawn
    rw [if_pos hshown, Failure.bind_apply, showScreen_eq, printed_printed]
    rfl
  · rename_i hundrawn
    have hhidden : ¬ (render && after.drawn) = true := hundrawn
    rw [if_neg hhidden, String.append_empty]
    rfl

/-!
## The cycle in one equation
-/

theorem runCycle_of_outside (hpc : 4094 < r.machine.pc.toNat)
    (hcycle : r.machine.cycle = .ok (.diagnosed (.counterOutside r.machine.pc)) after)
    (hroom : r.cycles.toNat + 1 < UInt64.size) :
    runCycle render r =
      .ok r.machine.halt?
        ((r.advanced 1 after).printed (if render then r.machine.frame else "")) := by
  have hhalt : r.machine.halt? = some .counterOutside := by
    rw [Machine.halt?, Memory.word?_eq_none_iff.mpr hpc]
  have hframe : r.machine.frame = "" := by
    rw [Machine.frame, Machine.executedWord?_of_diagnosed hcycle]
  rw [runCycle_of_ranAway hcycle hroom rfl, hhalt, hframe, ite_self, printed_empty]

theorem runCycle_of_unknown {word : UInt16}
    (hword : r.machine.memory.word? r.machine.pc = some word)
    (hunknown : Instruction.ofWord? word = none)
    (hcycle : r.machine.cycle =
      .ok (.diagnosed (.noInstruction word)) (r.machine.passed word))
    (hroom : r.cycles.toNat + 1 < UInt64.size) :
    runCycle render r =
      .ok r.machine.halt?
        ((r.advanced 1 (r.machine.passed word)).printed
          (if render then r.machine.frame else "")) := by
  have hneither : forall instruction : Instruction, ¬ instruction.SpelledBy word := by
    intro instruction hspelled
    rw [Instruction.ofWord?_of_spelledBy hspelled] at hunknown
    cases hunknown
  have hwaits : ¬ r.machine.Waits word := fun h =>
    hneither (.awaitKey (Opcode.x word)) ⟨h.1, h.2.1, rfl⟩
  have hjumps : ¬ r.machine.JumpsToItself word := fun h =>
    hneither (.jump (Opcode.address word)) ⟨h.1, rfl⟩
  have hframe : r.machine.frame = "" := by
    rw [Machine.frame, Machine.executedWord?_of_diagnosed hcycle]
  have hserve : serve render (r.machine.passed word).outbox.requests
      (r.advanced 1 (r.machine.passed word)) =
      .ok none ((r.advanced 1 (r.machine.passed word)).printed "") := by
    rw [printed_empty]
    rfl
  rw [runCycle_of_served hcycle hroom rfl hserve,
    Machine.halt?_of_not_waits hword hwaits, if_neg hjumps, hframe, ite_self]
  have hstays : jumpedToItself (r.machine.passed word) r.machine.pc
      (.diagnosed (.noInstruction word)) = false := by
    simp [jumpedToItself]
  have hundrawn : (r.machine.passed word).drawn = false := rfl
  rw [hstays, hundrawn, Bool.and_false]
  rfl

theorem runCycle_of_executed {word : UInt16} {instruction : Instruction}
    (hword : r.machine.memory.word? r.machine.pc = some word)
    (hspelled : instruction.SpelledBy word)
    (hcycle : r.machine.cycle = .ok .executed (r.machine.executed word instruction))
    (hroom : r.cycles.toNat + 1 < UInt64.size) :
    runCycle render r =
      .ok r.machine.halt?
        ((r.advanced 1 (r.machine.executed word instruction)).printed
          (if render then r.machine.frame else "")) := by
  have hframe := Machine.frame_of_executed (Machine.executedWord?_of_executed hword hcycle)
    hspelled (Machine.cycled_of_ok hcycle)
  by_cases hwaits : r.machine.Waits word
  · have hsilent : r.machine.frame = "" := by
      have hawait : instruction = .awaitKey (Opcode.x word) :=
        hspelled.unique ⟨hwaits.1, hwaits.2.1, rfl⟩
      simp [hframe, Machine.drawn_executed_iff, hawait]
    rw [runCycle_of_awaiting hcycle hroom rfl
      (Machine.requests_executed_of_waits hspelled hwaits),
      Machine.halt?_of_waits hword hwaits, hsilent, ite_self, printed_empty]
  · have hserve : serve render (r.machine.executed word instruction).outbox.requests
        (r.advanced 1 (r.machine.executed word instruction)) =
        .ok none ((r.advanced 1 (r.machine.executed word instruction)).printed
          (if render then if instruction = .clearScreen then clearSequence else "" else "")) := by
      rw [Machine.requests_executed_of_not_waits hspelled hwaits]
      split
      · exact serve_clearDisplay render _
      · rw [ite_self, printed_empty]
        rfl
    rw [runCycle_of_served hcycle hroom rfl hserve, Machine.jumpedToItself_executed hspelled,
      Machine.halt?_of_not_waits hword hwaits, hframe]
    simp only [decide_eq_true_eq]
    cases render with
    | true => simp only [if_true, Bool.true_and]
    | false => simp only [Bool.false_and, Bool.false_eq_true, if_false, String.append_empty]

theorem runCycle_eq (render : Bool) (r : Runner) :
    runCycle render r =
      match r.machine.cycle with
      | .ok _ after =>
          if r.cycles.toNat + 1 < UInt64.size then
            .ok r.machine.halt?
              ((r.advanced 1 after).printed (if render then r.machine.frame else ""))
          else .error .trap { r with machine := after }
      | .error failure after => .error failure { r with machine := after } := by
  by_cases hroom : r.cycles.toNat + 1 < UInt64.size
  · cases Machine.cycle_cases r.machine with
    | outside hpc hcycle =>
        rw [runCycle_of_outside hpc hcycle hroom, hcycle]
        exact (if_pos hroom).symm
    | unknown word hword hunknown hcycle =>
        rw [runCycle_of_unknown hword hunknown hcycle hroom, hcycle]
        exact (if_pos hroom).symm
    | failed _ _ _ _ _ _ hcycle =>
        rw [runCycle_of_error hcycle, hcycle]
    | executed word instruction hword hspelled _ hcycle =>
        rw [runCycle_of_executed hword hspelled hcycle hroom, hcycle]
        exact (if_pos hroom).symm
  · cases hcycle : r.machine.cycle with
    | ok outcome after =>
        rw [runCycle_of_full hcycle hroom]
        exact (if_neg hroom).symm
    | error failure after => rw [runCycle_of_error hcycle]

theorem of_runCycle_ok {reason? : Option Halt} {r' : Runner}
    (h : runCycle render r = .ok reason? r') :
    r.cycles.toNat + 1 < UInt64.size ∧ reason? = r.machine.halt? ∧
      r' = (r.advanced 1 r.machine.cycled).printed
        (if render then r.machine.frame else "") := by
  rw [runCycle_eq] at h
  cases hcycle : r.machine.cycle with
  | error failure after =>
      rw [hcycle] at h
      cases h
  | ok outcome after =>
      rw [hcycle] at h
      dsimp only at h
      split at h
      · rename_i hroom
        cases h
        exact ⟨hroom, rfl, by rw [Machine.cycled_of_ok hcycle]⟩
      · cases h

theorem cycles_of_runCycle_ok {reason? : Option Halt} {r' : Runner}
    (h : runCycle render r = .ok reason? r') : r'.cycles.toNat = r.cycles.toNat + 1 := by
  rcases of_runCycle_ok h with ⟨hroom, _, rfl⟩
  exact toNat_cycles_advanced (m := r.machine.cycled) hroom

theorem of_runCycle_error {r' : Runner} (h : runCycle render r = .error failure r') :
    r' = { r with machine := r.machine.cycled } ∧
      (failure = .trap ∨ exists after, r.machine.cycle = .error failure after) := by
  rw [runCycle_eq] at h
  cases hcycle : r.machine.cycle with
  | error failure after =>
      rw [hcycle] at h
      cases h
      exact ⟨by rw [Machine.cycled_of_error hcycle], Or.inr ⟨after, rfl⟩⟩
  | ok outcome after =>
      rw [hcycle] at h
      dsimp only at h
      split at h
      · cases h
      · cases h
        exact ⟨by rw [Machine.cycled_of_ok hcycle], Or.inl rfl⟩

/-!
## Batches of cycles
-/

theorem runCycle_ne_cycleLimit {r' : Runner} :
    runCycle render r ≠ .ok (some .cycleLimit) r' := by
  intro h
  exact r.machine.halt?_ne_cycleLimit (of_runCycle_ok h).2.1.symm

theorem runFor_succ (count : Nat) (r : Runner) :
    runFor (count + 1) r =
      match runCycle false r with
      | .ok none r' => runFor count r'
      | .ok (some reason) r' => .ok reason r'
      | .error failure r' => .error failure r' := by
  rw [runFor, Failure.bind_apply]
  cases runCycle false r with
  | error failure r' => rfl
  | ok reason? r' => cases reason? <;> rfl

theorem runFor_add (first second : Nat) (r : Runner) :
    runFor (first + second) r =
      match runFor first r with
      | .ok .cycleLimit r' => runFor second r'
      | result => result := by
  induction first generalizing r with
  | zero =>
      rw [Nat.zero_add]
      rfl
  | succ first ih =>
      rw [Nat.succ_add, runFor_succ, runFor_succ]
      cases hcycle : runCycle false r with
      | error failure r' => rfl
      | ok reason? r' =>
          cases reason? with
          | none => exact ih r'
          | some reason =>
              cases reason with
              | cycleLimit => exact absurd hcycle runCycle_ne_cycleLimit
              | finished | awaitingKey | counterOutside => rfl

end Runner

end Chip8
