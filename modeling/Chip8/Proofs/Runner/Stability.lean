import Chip8.Proofs.Runner.FirstStop

/-!
# Stops are stable

Nothing that a stopping cycle leaves takes the reason for the stop away: the same word is
fetched again, and what it asks of the registers, the stack, the index and the keys is
answered as before. So a batch that goes on behind a stop stops in its first cycle.
-/

namespace Chip8

namespace Machine

variable {m after : Machine} {word : UInt16} {reason : Halt} {failure : Failure}

/-- What a further cycle makes of a machine that was stopped for the reason: only time
passes, and outside memory not even that. -/
def settled (m : Machine) : Halt → Machine
  | .counterOutside => m
  | _ => m.aged

/-!
## The cycle behind a stop

A machine outside memory is left as it was begun. A machine that waits or jumps to itself
keeps its place, so the cycle behind it fetches the same word.
-/

theorem cycle_of_waits (hword : m.memory.word? m.pc = some word) (hwaits : m.Waits word) :
    m.cycle = .ok .executed (aged { m.fetched word with outbox := Outbox.single .awaitKey }) := by
  have hspelled : (Instruction.awaitKey (Opcode.x word)).SpelledBy word :=
    ⟨hwaits.1, hwaits.2.1, rfl⟩
  have hfetched : (m.fetched word).keys.lowestDown? = none := hwaits.2.2
  rw [cycle_of_known hword (Instruction.ofWord?_of_spelledBy hspelled)]
  simp only [Instruction.failure?, Failure.guarded, executed, Instruction.effect,
    Instruction.target, hfetched, hwaits.2.2]
  rfl

theorem cycle_of_jumpsToItself (hword : m.memory.word? m.pc = some word)
    (hjumps : m.JumpsToItself word) : m.cycle = .ok .executed (m.fetched word).aged := by
  have hspelled : (Instruction.jump (Opcode.address word)).SpelledBy word := ⟨hjumps.1, rfl⟩
  have htarget : Address.toWord (Opcode.address word) = m.pc := by
    rw [← UInt16.toNat_inj, Address.toNat_toWord]
    exact hjumps.2
  rw [cycle_of_known hword (Instruction.ofWord?_of_spelledBy hspelled)]
  simp only [Instruction.failure?, Failure.guarded, executed, Instruction.effect,
    Instruction.target, htarget]
  rfl

theorem cycle_again_of_halt? (h : m.halt? = some reason) :
    m.cycled.halt? = some reason ∧
      exists outcome, m.cycled.cycle = .ok outcome (m.cycled.settled reason) := by
  cases stops_of_halt? h with
  | outside hpc =>
      have hword : m.memory.word? m.pc = none := Memory.word?_eq_none_iff.mpr hpc
      rw [cycled_of_ok (cycle_of_outside hword)]
      exact ⟨h, _, cycle_of_outside (m := m.begun) hword⟩
  | @keyWait word hword hfamily hbyte hkeys =>
      have hwaits : m.Waits word :=
        ⟨hfamily, hbyte, Keypad.lowestDown?_eq_none_iff.mpr hkeys⟩
      rw [cycled_of_ok (cycle_of_waits hword hwaits)]
      exact ⟨h, _, cycle_of_waits (m := aged { m.fetched word with outbox := _ }) hword hwaits⟩
  | @selfJump word hword hfamily htarget =>
      have hjumps : m.JumpsToItself word := ⟨hfamily, htarget⟩
      rw [cycled_of_ok (cycle_of_jumpsToItself hword hjumps)]
      exact ⟨h, _, cycle_of_jumpsToItself (m := (m.fetched word).aged) hword hjumps⟩

theorem cycle_again_of_error (h : m.cycle = .error failure after) :
    after.cycle = .error failure after := by
  cases cycle_cases m with
  | outside _ hcycle | unknown _ _ _ hcycle | executed _ _ _ _ _ hcycle =>
      rw [h] at hcycle
      cases hcycle
  | failed word instruction failure hword hspelled hfailure hcycle =>
      rw [h] at hcycle
      cases hcycle
      have hknown := Instruction.ofWord?_of_spelledBy hspelled
      rw [cycle_of_known (m := m.fetched word) hword hknown, Instruction.failure?_fetched,
        hfailure]
      rfl

end Machine

namespace Runner

variable {r r' : Runner} {n : Nat} {reason : Halt} {failure : Failure}

/-!
## The cycle that ended a batch
-/

theorem exists_last_cycle (h : runFor n r = .ok reason r') (hreason : reason ≠ .cycleLimit) :
    exists last, runCycle false last = .ok (some reason) r' := by
  induction n generalizing r with
  | zero =>
      cases h
      exact absurd rfl hreason
  | succ n ih =>
      rw [runFor_succ] at h
      cases hcycle : runCycle false r with
      | error failure next =>
          rw [hcycle] at h
          cases h
      | ok reason? next =>
          rw [hcycle] at h
          cases reason? with
          | none => exact ih h
          | some stopped =>
              cases h
              exact ⟨r, hcycle⟩

theorem exists_failing_cycle (h : runFor n r = .error failure r') :
    exists last, runCycle false last = .error failure r' := by
  induction n generalizing r with
  | zero => cases h
  | succ n ih =>
      rw [runFor_succ] at h
      cases hcycle : runCycle false r with
      | error failed next =>
          rw [hcycle] at h
          cases h
          exact ⟨r, hcycle⟩
      | ok reason? next =>
          rw [hcycle] at h
          cases reason? with
          | none => exact ih h
          | some stopped => cases h

/-!
## Further batches
-/

theorem runCycle_again_of_halt (h : runCycle false r = .ok (some reason) r')
    (hroom : r'.cycles.toNat + 1 < UInt64.size) :
    runCycle false r' = .ok (some reason) (r'.advanced 1 (r'.machine.settled reason)) := by
  rcases of_runCycle_ok h with ⟨_, hhalt, hnext⟩
  have hmachine : r'.machine = r.machine.cycled := by
    rw [hnext]
    rfl
  rcases Machine.cycle_again_of_halt? hhalt.symm with ⟨hagain, outcome, hcycle⟩
  rw [← hmachine] at hagain hcycle
  rw [runCycle_eq, hcycle, hagain]
  dsimp only
  rw [if_pos hroom, if_neg Bool.false_ne_true, printed_empty]

theorem runCycle_again_of_fault {cause : Error}
    (h : runCycle false r = .error (.error cause) r') :
    runCycle false r' = .error (.error cause) r' := by
  rcases of_runCycle_error h with ⟨rfl, htrap | ⟨after, hcycle⟩⟩
  · cases htrap
  · rw [Machine.cycled_of_error hcycle]
    exact runCycle_of_error (r := { r with machine := after })
      (Machine.cycle_again_of_error hcycle)

/-- A batch behind one that was stopped is stopped again, in its first cycle. For a jump
of a word to itself and for a missing key that cycle lets time pass and changes nothing
else, outside memory it changes nothing at all; it is counted as long as the count has
room. A batch behind a fault meets the same fault and leaves everything alone. -/
theorem stopped_batch_stops_again (r r' : Runner) (n : Nat) :
    (forall reason, runFor n r = .ok reason r' -> reason ≠ .cycleLimit ->
      r'.cycles.toNat + 1 < UInt64.size -> forall further, 1 ≤ further ->
        runFor further r' = .ok reason (r'.advanced 1 (r'.machine.settled reason)) ∧
        (r'.advanced 1 (r'.machine.settled reason)).cycles.toNat = r'.cycles.toNat + 1) ∧
    (forall cause, runFor n r = .error (.error cause) r' -> forall further, 1 ≤ further ->
      runFor further r' = .error (.error cause) r') := by
  constructor
  · intro reason h hreason hroom further hfurther
    rcases exists_last_cycle h hreason with ⟨last, hlast⟩
    rcases Nat.exists_eq_add_of_le' hfurther with ⟨rest, rfl⟩
    refine ⟨?_, toNat_cycles_advanced (m := r'.machine.settled reason) hroom⟩
    rw [runFor_succ, runCycle_again_of_halt hlast hroom]
  · intro cause h further hfurther
    rcases exists_failing_cycle h with ⟨last, hlast⟩
    rcases Nat.exists_eq_add_of_le' hfurther with ⟨rest, rfl⟩
    rw [runFor_succ, runCycle_again_of_fault hlast]

/-- Writes a jump to itself over the word behind its own two, and then meets it. -/
def selfWriting : Runner where
  options := { program := "write.ch8" }
  machine :=
    { Machine.powerOn with
      memory := Bytes.write (Bytes.zeros 4096) 0 [0xA0, 0x04, 0xF1, 0x55]
      registers := Bytes.write (Bytes.zeros 16) 0 [0x10, 0x04]
      delayTimer := 9
      pc := 0 }

def uncalled : Runner where
  options := { program := "return.ch8" }
  machine :=
    { Machine.powerOn with
      memory := Bytes.write (Bytes.zeros 4096) 0 [0x00, 0xE0, 0x00, 0xEE]
      pc := 0 }

theorem selfWriting_finishes_again :
    (exists r', runFor 7 selfWriting = .ok .finished r' ∧ r'.cycles = 3 ∧
      r'.machine.delayTimer = 6 ∧
      runFor 5 r' = .ok .finished (r'.advanced 1 r'.machine.aged)) ∧
    (exists r', runFor 4 uncalled = .error (.error .stackEmpty) r' ∧ r'.cycles = 1 ∧
      runFor 6 r' = .error (.error .stackEmpty) r') := by
  constructor
  · have hbatch : (match runFor 7 selfWriting with
        | .ok reason r' => reason == .finished && r'.cycles == 3 && r'.machine.delayTimer == 6
        | .error _ _ => false) = true := by decide +kernel
    cases hfirst : runFor 7 selfWriting with
    | error failure r' =>
        rw [hfirst] at hbatch
        cases hbatch
    | ok reason r' =>
        rw [hfirst] at hbatch
        simp only [Bool.and_eq_true, beq_iff_eq] at hbatch
        rcases hbatch with ⟨⟨rfl, hcycles⟩, htimer⟩
        have hroom : r'.cycles.toNat + 1 < UInt64.size := by
          rw [hcycles]
          decide
        have hagain := (stopped_batch_stops_again selfWriting r' 7).1 .finished hfirst
          (by decide) hroom 5 (by decide)
        exact ⟨r', rfl, hcycles, htimer, hagain.1⟩
  · have hbatch : (match runFor 4 uncalled with
        | .ok _ _ => false
        | .error failure r' => failure == .error .stackEmpty && r'.cycles == 1) = true := by
      decide +kernel
    cases hfirst : runFor 4 uncalled with
    | ok reason r' =>
        rw [hfirst] at hbatch
        cases hbatch
    | error failure r' =>
        rw [hfirst] at hbatch
        simp only [Bool.and_eq_true, beq_iff_eq] at hbatch
        rcases hbatch with ⟨rfl, hcycles⟩
        exact ⟨r', rfl, hcycles,
          (stopped_batch_stops_again uncalled r' 4).2 .stackEmpty hfirst 6 (by decide)⟩

end Runner

end Chip8
