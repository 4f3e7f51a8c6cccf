import Chip8.Proofs.Runner.Turn

/-!
# What a run does not depend on

Machines that differ only in the sound timer, the drawing flag, the noted word and the
outbox run alike. A cycle replaces the last three before anything could read them, and
the sound timer is only ever written. The runner does look at the drawing flag, the noted
word and the outbox, but behind a cycle that replaced them; where the word was not
replaced, outside memory, the run ends first.
-/

namespace Chip8

inductive Failure.Related {σ α : Type} (relation : σ → σ → Prop) :
    EStateM.Result Failure σ α → EStateM.Result Failure σ α → Prop
  | ok {value : α} {after other : σ} (h : relation after other) :
      Related relation (.ok value after) (.ok value other)
  | error {failure : Failure} {after other : σ} (h : relation after other) :
      Related relation (.error failure after) (.error failure other)

theorem Failure.Related.imp {σ α : Type} {relation weaker : σ → σ → Prop}
    {result other : EStateM.Result Failure σ α} (h : Related relation result other)
    (hweaker : forall after otherAfter, relation after otherAfter -> weaker after otherAfter) :
    Related weaker result other := by
  cases h with
  | ok hrelated => exact .ok (hweaker _ _ hrelated)
  | error hrelated => exact .error (hweaker _ _ hrelated)

theorem Failure.Related.stateOf {σ α : Type} {relation : σ → σ → Prop}
    {result other : EStateM.Result Failure σ α} (h : Related relation result other) :
    relation (Failure.stateOf result) (Failure.stateOf other) := by
  cases h with
  | ok hrelated => exact hrelated
  | error hrelated => exact hrelated

namespace Machine

variable {m other : Machine} {word address : UInt16}

/-- Behind a cycle at the address the machines differ at most in the sound timer, and in
the noted word if the address is outside memory. -/
def AlikeBehind (address : UInt16) (m other : Machine) : Prop :=
  exists soundTimer opcode, other = { m with soundTimer, opcode } ∧
    (address.toNat ≤ 4094 → opcode = m.opcode)

theorem AlikeBehind.alike (h : AlikeBehind address m other) : m.Alike other := by
  rcases h with ⟨soundTimer, opcode, rfl, _⟩
  exact ⟨soundTimer, m.drawn, opcode, m.outbox, rfl⟩

theorem halt?_of_alike (h : m.Alike other) : other.halt? = m.halt? := by
  rcases h with ⟨soundTimer, drawn, opcode, outbox, rfl⟩
  rfl

/-!
## One cycle
-/

theorem executed_of_alike (h : m.Alike other) (instruction : Instruction) :
    AlikeBehind address (m.executed word instruction) (other.executed word instruction) := by
  have htarget := Instruction.target_of_alike h instruction
  rcases h with ⟨soundTimer, drawn, opcode, outbox, rfl⟩
  rcases Instruction.exists_effect_of_soundTimer (m.fetched word) soundTimer instruction with
    ⟨after, heffect⟩
  refine ⟨countDown after, (m.executed word instruction).opcode, ?_, fun _ => rfl⟩
  unfold executed
  rw [htarget]
  exact congrArg
    (fun machine : Machine => aged { machine with pc := instruction.target m }) heffect

theorem related_cycle {relation : Machine → Machine → Prop}
    (hmemory : other.memory = m.memory) (hpc : other.pc = m.pc)
    (hfailures : forall instruction : Instruction,
      instruction.failure? other = instruction.failure? m)
    (hbegun : 4094 < m.pc.toNat -> relation m.begun other.begun)
    (hpassed : forall word, relation (m.passed word) (other.passed word))
    (hfetched : forall word, relation (m.fetched word) (other.fetched word))
    (hexecuted : forall word instruction, m.executedWord? = some word ->
      instruction.SpelledBy word ->
        relation (m.executed word instruction) (other.executed word instruction)) :
    Failure.Related relation m.cycle other.cycle := by
  have hsame : other.memory.word? other.pc = m.memory.word? m.pc := by rw [hmemory, hpc]
  cases cycle_cases m with
  | outside houtside hcycle =>
      have hnone := hsame.trans (Memory.word?_eq_none_iff.mpr houtside)
      rw [hcycle, cycle_of_outside hnone, hpc]
      exact .ok (hbegun houtside)
  | unknown word hword hunknown hcycle =>
      rw [hcycle, cycle_of_unknown (hsame.trans hword) hunknown]
      exact .ok (hpassed word)
  | failed word instruction failure hword hspelled hfailure hcycle =>
      have hknown := Instruction.ofWord?_of_spelledBy hspelled
      rw [hcycle, cycle_of_known (hsame.trans hword) hknown, hfailures, hfailure]
      exact .error (hfetched word)
  | executed word instruction hword hspelled hfailure hcycle =>
      have hknown := Instruction.ofWord?_of_spelledBy hspelled
      rw [hcycle, cycle_of_known (hsame.trans hword) hknown, hfailures, hfailure]
      exact .ok (hexecuted word instruction (executedWord?_of_executed hword hcycle) hspelled)

theorem cycle_of_alike (h : m.Alike other) :
    Failure.Related (AlikeBehind m.pc) m.cycle other.cycle := by
  have hfailures := Instruction.failure?_of_alike h
  have hexecuted : forall word instruction,
      AlikeBehind m.pc (m.executed word instruction) (other.executed word instruction) :=
    fun _ instruction => executed_of_alike h instruction
  rcases h with ⟨soundTimer, drawn, opcode, outbox, rfl⟩
  refine related_cycle rfl rfl hfailures ?_ ?_ ?_ fun word instruction _ _ =>
    hexecuted word instruction
  · intro houtside
    exact ⟨soundTimer, opcode, rfl, fun hinside => absurd hinside (Nat.not_le_of_lt houtside)⟩
  · intro word
    exact ⟨countDown soundTimer, word, rfl, fun _ => rfl⟩
  · intro word
    exact ⟨soundTimer, word, rfl, fun _ => rfl⟩

end Machine

namespace Runner

variable {r other after otherAfter : Runner} {n : Nat}

def Abreast (r other after otherAfter : Runner) : Prop :=
  after.machine.Alike otherAfter.machine ∧
    exists count, after.cycles.toNat = r.cycles.toNat + count ∧
      otherAfter.cycles.toNat = other.cycles.toNat + count

theorem Abreast.trans {last otherLast : Runner} (h : r.Abreast other after otherAfter)
    (h' : after.Abreast otherAfter last otherLast) : r.Abreast other last otherLast := by
  rcases h with ⟨_, count, hcount, hother⟩
  rcases h' with ⟨halike, rest, hrest, hotherRest⟩
  exact ⟨halike, count + rest, by lia, by lia⟩

def Level (n : Nat) (r other : Runner) : Prop :=
  r.cycles = other.cycles ∨
    (r.cycles.toNat + n < UInt64.size ∧ other.cycles.toNat + n < UInt64.size)

theorem Level.room_iff (h : Level (n + 1) r other) :
    r.cycles.toNat + 1 < UInt64.size ↔ other.cycles.toNat + 1 < UInt64.size := by
  rcases h with hsame | ⟨hroom, hother⟩
  · rw [hsame]
  · exact ⟨fun _ => by lia, fun _ => by lia⟩

theorem Level.advanced (h : Level (n + 1) r other)
    (hafter : after.cycles.toNat = r.cycles.toNat + 1)
    (hother : otherAfter.cycles.toNat = other.cycles.toNat + 1) : Level n after otherAfter := by
  rcases h with hsame | ⟨hroom, hotherRoom⟩
  · refine Or.inl (UInt64.toNat_inj.mp ?_)
    rw [hafter, hother, hsame]
  · exact Or.inr ⟨by lia, by lia⟩

/-!
## Runs
-/

theorem runCycle_of_alike (h : r.machine.Alike other.machine) (hlevel : Level (n + 1) r other) :
    Failure.Related (Abreast r other) (runCycle false r) (runCycle false other) := by
  have hcycle := Machine.cycle_of_alike h
  have hroom := hlevel.room_iff
  rw [runCycle_eq, runCycle_eq, Machine.halt?_of_alike h]
  simp only [Bool.false_eq_true, if_false, printed_empty]
  generalize r.machine.cycle = result at hcycle ⊢
  generalize other.machine.cycle = otherResult at hcycle ⊢
  cases hcycle with
  | error hbehind => exact .error ⟨hbehind.alike, 0, rfl, rfl⟩
  | ok hbehind =>
      dsimp only
      split
      · rename_i hhas
        rw [if_pos (hroom.mp hhas)]
        exact .ok ⟨hbehind.alike, 1, toNat_cycles_advanced hhas,
          toNat_cycles_advanced (hroom.mp hhas)⟩
      · rename_i hfull
        rw [if_neg (mt hroom.mpr hfull)]
        exact .error ⟨hbehind.alike, 0, rfl, rfl⟩

theorem runFor_of_alike (h : r.machine.Alike other.machine) (hlevel : Level n r other) :
    Failure.Related (Abreast r other) (runFor n r) (runFor n other) := by
  induction n generalizing r other with
  | zero => exact .ok ⟨h, 0, rfl, rfl⟩
  | succ n ih =>
      have hcycle := runCycle_of_alike h hlevel
      rw [runFor_succ, runFor_succ]
      generalize hfirst : runCycle false r = first at hcycle ⊢
      generalize hsecond : runCycle false other = second at hcycle ⊢
      cases hcycle with
      | error habreast => exact .error habreast
      | @ok reason? after otherAfter habreast =>
          cases reason? with
          | some reason => exact .ok habreast
          | none =>
              have hrest := ih habreast.1
                (hlevel.advanced (cycles_of_runCycle_ok hfirst) (cycles_of_runCycle_ok hsecond))
              exact hrest.imp fun _ _ hlast => habreast.trans hlast

/-- Whatever the sound timer, the drawing flag, the noted word and the outbox hold, a cycle
gives the same result and the same requests, and leaves machines that differ at most in
the sound timer, and in the noted word outside memory. So a batch gives the same result
after the same number of cycles. -/
theorem incidentals_do_not_matter :
    (forall m other : Machine, m.Alike other ->
      Failure.Related (Machine.AlikeBehind m.pc) m.cycle other.cycle) ∧
    (forall (r other : Runner) (n : Nat), r.machine.Alike other.machine -> Level n r other ->
      Failure.Related (Abreast r other) (runFor n r) (runFor n other)) :=
  ⟨fun _ _ h => Machine.cycle_of_alike h, fun _ _ _ h hlevel => runFor_of_alike h hlevel⟩

def callingOn : Runner where
  options := { program := "calling.ch8" }
  machine :=
    { Machine.powerOn with
      memory := Bytes.write (Bytes.zeros 4096) 0 [0xF0, 0x18, 0x20, 0x02]
      pc := 2 }

def callingOnStale : Runner where
  options := { program := "stale.ch8" }
  machine :=
    { callingOn.machine with
      soundTimer := 200
      drawn := true
      opcode := 0x1002
      outbox := ⟨[.clearDisplay, .awaitKey], by decide⟩ }
  cycles := 7

theorem callingOn_fails_like_stale :
    callingOn.machine.Alike callingOnStale.machine ∧ Level 30 callingOn callingOnStale ∧
      exists after other, runFor 30 callingOn = .error (.error (.stackFull 16)) after ∧
        runFor 30 callingOnStale = .error (.error (.stackFull 16)) other ∧
        after.cycles = 16 ∧ callingOn.Abreast callingOnStale after other := by
  have halike : callingOn.machine.Alike callingOnStale.machine := ⟨_, _, _, _, rfl⟩
  have hlevel : Level 30 callingOn callingOnStale := Or.inr (by decide)
  refine ⟨halike, hlevel, ?_⟩
  have hrelated := incidentals_do_not_matter.2 callingOn callingOnStale 30 halike hlevel
  have hbatch : (match runFor 30 callingOn with
      | .ok _ _ => false
      | .error failure after =>
          failure == .error (.stackFull 16) && after.cycles == 16) = true := by
    decide +kernel
  generalize runFor 30 callingOn = first at hrelated hbatch ⊢
  generalize runFor 30 callingOnStale = second at hrelated ⊢
  cases hrelated with
  | ok _ => cases hbatch
  | @error failure after other habreast =>
      simp only [Bool.and_eq_true, beq_iff_eq] at hbatch
      rcases hbatch with ⟨rfl, hcycles⟩
      exact ⟨after, other, rfl, rfl, hcycles, habreast⟩

end Runner

end Chip8
