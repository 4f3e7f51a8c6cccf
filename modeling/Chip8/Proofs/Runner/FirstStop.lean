import Chip8.Proofs.Cycle.Faults
import Chip8.Proofs.Runner.Turn

/-!
# The first stop of a run

A batch of cycles ends with the first cycle at which there is a reason to stop, and each
reason is told from the machine in front of that cycle: the cycle fails, the program
counter has left memory, a key is asked for and none is down, or the word is a jump to
its own address. Without a reason the batch ends behind its last cycle.
-/

namespace Chip8

namespace Machine

variable {m : Machine} {word : UInt16} {halt : Halt} {stop : Except Error Halt}

inductive Stops (m : Machine) : Except Error Halt → Prop where
  | fault {cause : Error} {after : Machine} (hcycle : m.cycle = .error (.error cause) after) :
      Stops m (.error cause)
  | outside (hpc : 4094 < m.pc.toNat) : Stops m (.ok .counterOutside)
  | keyWait {word : UInt16} (hword : m.memory.word? m.pc = some word)
      (hfamily : Opcode.family word = 0xF) (hbyte : (Opcode.byte word).toNat = 0x0A)
      (hkeys : forall key, m.keys.get key = false) : Stops m (.ok .awaitingKey)
  | selfJump {word : UInt16} (hword : m.memory.word? m.pc = some word)
      (hfamily : Opcode.family word = 0x1)
      (htarget : (Opcode.address word).val = m.pc.toNat) : Stops m (.ok .finished)

structure FirstStop (m : Machine) (count : Nat) (stop : Except Error Halt) : Prop where
  stops : (m.afterCycles count).Stops stop
  before : forall k, k < count -> forall other, ¬ (m.afterCycles k).Stops other

def Passes (m : Machine) : Prop :=
  (exists outcome after, m.cycle = .ok outcome after) ∧ m.halt? = none

/-!
## Stopping or passing

A halting cycle ends, and the reason is the one told in front of it. So a cycle that does
not trap either stops the run or passes.
-/

theorem cycle_ends_of_word {instruction : Instruction}
    (hword : m.memory.word? m.pc = some word) (hspelled : instruction.SpelledBy word)
    (hfailure : instruction.failure? m = none) :
    exists outcome after, m.cycle = .ok outcome after := by
  rw [cycle_of_known hword (Instruction.ofWord?_of_spelledBy hspelled), hfailure]
  exact ⟨_, _, rfl⟩

theorem Stops.halt?_eq (h : m.Stops (.ok halt)) :
    (exists outcome after, m.cycle = .ok outcome after) ∧ m.halt? = some halt := by
  cases h with
  | outside hpc =>
      have hword : m.memory.word? m.pc = none := Memory.word?_eq_none_iff.mpr hpc
      refine ⟨⟨_, _, cycle_of_outside hword⟩, ?_⟩
      rw [halt?, hword]
  | keyWait hword hfamily hbyte hkeys =>
      have hspelled : (Instruction.awaitKey (Opcode.x _)).SpelledBy _ :=
        ⟨hfamily, hbyte, rfl⟩
      exact ⟨cycle_ends_of_word hword hspelled rfl,
        halt?_of_waits hword ⟨hfamily, hbyte, Keypad.lowestDown?_eq_none_iff.mpr hkeys⟩⟩
  | selfJump hword hfamily htarget =>
      have hspelled : (Instruction.jump (Opcode.address _)).SpelledBy _ := ⟨hfamily, rfl⟩
      refine ⟨cycle_ends_of_word hword hspelled rfl, ?_⟩
      have hwaits : ¬ m.Waits _ := fun hkey => by
        rw [Waits, hfamily] at hkey
        exact absurd hkey.1 (by decide)
      rw [halt?_of_not_waits hword hwaits, if_pos ⟨hfamily, htarget⟩]

theorem stops_of_halt? (h : m.halt? = some halt) : m.Stops (.ok halt) := by
  cases hword : m.memory.word? m.pc with
  | none =>
      rw [halt?, hword] at h
      cases h
      exact .outside (Memory.word?_eq_none_iff.mp hword)
  | some word =>
      by_cases hwaits : m.Waits word
      · rw [halt?_of_waits hword hwaits] at h
        cases h
        exact .keyWait hword hwaits.1 hwaits.2.1
          (Keypad.lowestDown?_eq_none_iff.mp hwaits.2.2)
      · rw [halt?_of_not_waits hword hwaits] at h
        split at h
        · rename_i hjumps
          cases h
          exact .selfJump hword hjumps.1 hjumps.2
        · cases h

theorem Passes.not_stops (h : m.Passes) (stop : Except Error Halt) : ¬ m.Stops stop := by
  rcases h with ⟨⟨outcome, after, hcycle⟩, hhalt⟩
  intro hstops
  cases stop with
  | error cause =>
      cases hstops with
      | fault hfailed =>
          rw [hcycle] at hfailed
          cases hfailed
  | ok halt =>
      rw [hstops.halt?_eq.2] at hhalt
      cases hhalt

theorem passes_of_not_stops (htrap : forall after, m.cycle ≠ .error .trap after)
    (h : forall stop, ¬ m.Stops stop) : m.Passes := by
  constructor
  · cases hcycle : m.cycle with
    | ok outcome after => exact ⟨outcome, after, rfl⟩
    | error failure after =>
        cases failure with
        | error cause => exact absurd (.fault hcycle) (h (.error cause))
        | trap => exact absurd hcycle (htrap after)
  · cases hhalt : m.halt? with
    | none => rfl
    | some halt => exact absurd (stops_of_halt? hhalt) (h (.ok halt))

theorem passes_of_executedWord? (h : m.executedWord?.isSome = true) (hhalt : m.halt? = none) :
    m.Passes := by
  unfold executedWord? at h
  split at h
  · rename_i after hcycle
    exact ⟨⟨.executed, after, hcycle⟩, hhalt⟩
  · cases h

theorem exists_firstStop (m : Machine) (count : Nat) :
    (forall k, k < count -> forall stop, ¬ (m.afterCycles k).Stops stop) ∨
      exists k, k < count ∧ exists stop, m.FirstStop k stop := by
  induction count with
  | zero => exact Or.inl fun k hk => absurd hk (Nat.not_lt_zero k)
  | succ count ih =>
      rcases ih with hnone | ⟨k, hk, stop, hfirst⟩
      · by_cases hstops : exists stop, (m.afterCycles count).Stops stop
        · rcases hstops with ⟨stop, hstops⟩
          exact Or.inr ⟨count, Nat.lt_succ_self count, stop, hstops, hnone⟩
        · refine Or.inl fun k hk => ?_
          rcases Nat.lt_succ_iff_lt_or_eq.mp hk with hearlier | rfl
          · exact hnone k hearlier
          · exact not_exists.mp hstops
      · exact Or.inr ⟨k, Nat.lt_succ_of_lt hk, stop, hfirst⟩

end Machine

namespace Runner

variable {r : Runner} {stop : Except Error Halt}

/-- How a run ends that stops after `count` cycles, in the cycle behind them. That cycle
is counted unless it failed. -/
def ended (r : Runner) (count : Nat) :
    Except Error Halt → EStateM.Result Failure Runner Halt
  | .ok halt => .ok halt (r.advanced (count + 1) (r.machine.afterCycles (count + 1)))
  | .error cause =>
      .error (.error cause) (r.advanced count (r.machine.afterCycles (count + 1)))

theorem advanced_zero (r : Runner) (m : Machine) :
    r.advanced 0 m = { r with machine := m } := by
  rw [advanced, Nat.add_zero, UInt64.ofNat_toNat]

theorem advanced_advanced {first second : Nat} {m m' : Machine}
    (hroom : r.cycles.toNat + first < UInt64.size) :
    (r.advanced first m).advanced second m' = r.advanced (first + second) m' := by
  rw [advanced, toNat_cycles_advanced hroom, Nat.add_assoc]
  rfl

theorem room_advanced {first second : Nat} {m : Machine}
    (hroom : r.cycles.toNat + (first + second) < UInt64.size) :
    (r.advanced first m).cycles.toNat + second < UInt64.size := by
  rw [← Nat.add_assoc] at hroom
  have hfirst : r.cycles.toNat + first < UInt64.size :=
    Nat.lt_of_le_of_lt (Nat.le_add_right _ second) hroom
  rw [toNat_cycles_advanced hfirst]
  exact hroom

/-!
## One cycle
-/

theorem runCycle_of_passes (h : r.machine.Passes)
    (hroom : r.cycles.toNat + 1 < UInt64.size) :
    runCycle false r = .ok none (r.advanced 1 r.machine.cycled) := by
  rcases h with ⟨⟨outcome, after, hcycle⟩, hhalt⟩
  rw [runCycle_eq, hcycle, hhalt, Machine.cycled_of_ok hcycle]
  dsimp only
  rw [if_pos hroom, if_neg Bool.false_ne_true, printed_empty]

theorem runFor_of_stops (h : r.machine.Stops stop) (hroom : r.cycles.toNat + 1 < UInt64.size)
    (count : Nat) : runFor (count + 1) r = r.ended 0 stop := by
  cases stop with
  | error cause =>
      cases h with
      | fault hcycle =>
          rw [runFor_succ, runCycle_of_error hcycle, ended, advanced_zero,
            Machine.afterCycles_succ, Machine.afterCycles_zero, Machine.cycled_of_error hcycle]
  | ok halt =>
      rcases h.halt?_eq with ⟨⟨outcome, after, hcycle⟩, hhalt⟩
      rw [runFor_succ, runCycle_eq, hcycle, hhalt, ended, Machine.afterCycles_succ,
        Machine.afterCycles_zero, Machine.cycled_of_ok hcycle]
      dsimp only
      rw [if_pos hroom, if_neg Bool.false_ne_true, printed_empty]

/-!
## Batches

The cycles in front of the first stop are a batch of their own, which ends at its limit.
The rest of the batch then starts with the stopping cycle and ends with it.
-/

theorem runFor_of_passes (count : Nat) (hroom : r.cycles.toNat + count < UInt64.size)
    (hpasses : forall k, k < count -> (r.machine.afterCycles k).Passes) :
    runFor count r = .ok .cycleLimit (r.advanced count (r.machine.afterCycles count)) := by
  induction count with
  | zero =>
      rw [advanced_zero]
      rfl
  | succ count ih =>
      have hearlier : r.cycles.toNat + count < UInt64.size := Nat.lt_of_succ_lt hroom
      have hcycle := runCycle_of_passes
        (r := r.advanced count (r.machine.afterCycles count))
        (hpasses count (Nat.lt_succ_self count)) (room_advanced hroom)
      rw [runFor_add, ih hearlier fun k hk => hpasses k (Nat.lt_succ_of_lt hk)]
      dsimp only
      rw [runFor_succ, hcycle, advanced_advanced hearlier, Machine.afterCycles_succ]
      rfl

theorem ended_advanced {count : Nat} (hroom : r.cycles.toNat + count < UInt64.size) :
    (r.advanced count (r.machine.afterCycles count)).ended 0 stop = r.ended count stop := by
  cases stop <;>
    simp only [ended, machine_advanced, advanced_advanced hroom, Machine.afterCycles_add,
      Nat.zero_add, Nat.add_zero]

theorem runFor_of_passes_of_stops {count n : Nat} (hcount : count < n)
    (hroom : r.cycles.toNat + n < UInt64.size)
    (hpasses : forall k, k < count -> (r.machine.afterCycles k).Passes)
    (hstops : (r.machine.afterCycles count).Stops stop) : runFor n r = r.ended count stop := by
  rcases Nat.exists_eq_add_of_lt hcount with ⟨rest, rfl⟩
  have hearlier : r.cycles.toNat + count < UInt64.size := by lia
  have hlast : (r.advanced count (r.machine.afterCycles count)).cycles.toNat + 1 <
      UInt64.size := room_advanced (by lia)
  rw [Nat.add_assoc, runFor_add, runFor_of_passes count hearlier hpasses]
  dsimp only
  rw [runFor_of_stops hstops hlast, ended_advanced hearlier]

theorem runFor_of_firstStop {count n : Nat} (hcount : count < n)
    (hroom : r.cycles.toNat + n < UInt64.size)
    (htrap : forall k, k < n -> forall after,
      (r.machine.afterCycles k).cycle ≠ .error .trap after)
    (h : r.machine.FirstStop count stop) : runFor n r = r.ended count stop := by
  refine runFor_of_passes_of_stops hcount hroom (fun k hk => ?_) h.stops
  exact Machine.passes_of_not_stops (htrap k (Nat.lt_trans hk hcount)) (h.before k hk)

/-- As long as no cycle traps and the count has room, a batch ends at its first stop, with
the error or the reason of that, the machine that the stopping cycle left, and that cycle
counted unless it failed. If nothing stops it, it ends at its limit behind its last cycle.
It only ever finishes with a jump to its own address. -/
theorem runFor_ends_at_first_stop (r : Runner) (n : Nat)
    (hroom : r.cycles.toNat + n < UInt64.size)
    (htrap : forall k, k < n -> forall after,
      (r.machine.afterCycles k).cycle ≠ .error .trap after) :
    (forall count, count < n -> forall stop, r.machine.FirstStop count stop ->
      runFor n r = r.ended count stop) ∧
    ((forall k, k < n -> forall stop, ¬ (r.machine.afterCycles k).Stops stop) ->
      runFor n r = .ok .cycleLimit (r.advanced n (r.machine.afterCycles n))) ∧
    (forall r', runFor n r = .ok .finished r' ->
      exists count, count < n ∧
        r' = r.advanced (count + 1) (r.machine.afterCycles (count + 1)) ∧
        exists word,
          (r.machine.afterCycles count).memory.word? (r.machine.afterCycles count).pc =
            some word ∧
          Opcode.family word = 0x1 ∧
          (Opcode.address word).val = (r.machine.afterCycles count).pc.toNat) := by
  have hlimit : (forall k, k < n -> forall stop, ¬ (r.machine.afterCycles k).Stops stop) ->
      runFor n r = .ok .cycleLimit (r.advanced n (r.machine.afterCycles n)) := fun hnone =>
    runFor_of_passes n hroom fun k hk => Machine.passes_of_not_stops (htrap k hk) (hnone k hk)
  refine ⟨?_, hlimit, ?_⟩
  · intro count hcount stop hfirst
    exact runFor_of_firstStop hcount hroom htrap hfirst
  · intro r' hfinished
    rcases r.machine.exists_firstStop n with hnone | ⟨count, hcount, stop, hfirst⟩
    · rw [hlimit hnone] at hfinished
      cases hfinished
    · rw [runFor_of_firstStop hcount hroom htrap hfirst] at hfinished
      cases stop with
      | error cause => cases hfinished
      | ok halt =>
          have hstops := hfirst.stops
          cases hfinished
          cases hstops with
          | selfJump hword hfamily htarget =>
              exact ⟨count, hcount, rfl, _, hword, hfamily, htarget⟩

def selfCalling : Runner where
  options := { program := "self.ch8" }
  machine := { Machine.powerOn with memory := Bytes.write (Bytes.zeros 4096) 0 [0x20], pc := 0 }
  cycles := 7

theorem firstStop_selfCalling :
    selfCalling.machine.FirstStop 16 (.error (.stackFull 16)) where
  stops := by
    have hword : (selfCalling.machine.afterCycles 16).memory.word?
        (selfCalling.machine.afterCycles 16).pc = some 0x2000 := by decide +kernel
    have hfull : (selfCalling.machine.afterCycles 16).stack.depth = 16 := by decide +kernel
    exact .fault (Machine.cycle_of_fault hword (.fullCall (by decide) hfull))
  before := by
    have hpass : ∀ k < 16, (selfCalling.machine.afterCycles k).executedWord?.isSome ∧
        (selfCalling.machine.afterCycles k).halt? = none := by decide +kernel
    intro k hk
    exact (Machine.passes_of_executedWord? (hpass k hk).1 (hpass k hk).2).not_stops

theorem selfCalling_overflows :
    selfCalling.cycles.toNat + 20 < UInt64.size ∧
    (forall k, k < 20 -> forall after,
      (selfCalling.machine.afterCycles k).cycle ≠ .error .trap after) ∧
    runFor 20 selfCalling = .error (.error (.stackFull 16))
      (selfCalling.advanced 16 (selfCalling.machine.afterCycles 17)) := by
  have hroom : selfCalling.cycles.toNat + 20 < UInt64.size := by decide
  have hword : ∀ k < 20, (selfCalling.machine.afterCycles k).memory.word?
      (selfCalling.machine.afterCycles k).pc = some 0x2000 := by decide +kernel
  have htrap : forall k, k < 20 -> forall after,
      (selfCalling.machine.afterCycles k).cycle ≠ .error .trap after := by
    intro k hk after hcycle
    rcases Machine.drawsNothingBeyond_of_cycle hcycle with ⟨_, word, hfetched, hfamily, _⟩
    rw [hword k hk] at hfetched
    cases hfetched
    exact absurd hfamily (by decide)
  exact ⟨hroom, htrap, (runFor_ends_at_first_stop selfCalling 20 hroom htrap).1 16 (by decide)
    _ firstStop_selfCalling⟩

end Runner

end Chip8
