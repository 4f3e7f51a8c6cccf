import Chip8.Proofs.Cycle.Standstill

/-!
# Words that stand for nothing

A word that stands for nothing takes a cycle in which only time passes. Behind one of family
F the machine goes on with the next word. At one of the arithmetic or the key family it stays,
and nothing that a runner looks for ever comes of that: a batch of cycles ends at its limit,
however large that is.
-/

namespace Chip8

namespace Opcode

variable {word : UInt16}

def IsUnknown (word : UInt16) : Prop :=
  IsRefused word ∨ (family word = 0xF ∧ (byte word).toNat ∉ deviceBytes)

theorem IsRefused.family (h : IsRefused word) :
    Opcode.family word = 0x8 ∨ Opcode.family word = 0xE := by
  cases h with
  | arithmetic hfamily _ _ => exact Or.inl hfamily
  | key hfamily _ _ => exact Or.inr hfamily

end Opcode

namespace Machine

variable {m after : Machine} {word unknown : UInt16}

/-- The machine `after` is `m` behind a cycle that passed over the word: each timer is one
lower unless it had run out, and the next word follows if the word is of family F. -/
structure PassedOver (m after : Machine) (word : UInt16) : Prop where
  delayTimer : after.delayTimer.toNat = m.delayTimer.toNat - 1
  soundTimer : after.soundTimer.toNat = m.soundTimer.toNat - 1
  pc : after.pc.toNat = if Opcode.family word = 0xF then m.pc.toNat + 2 else m.pc.toNat
  rest : after =
    { m with
      delayTimer := after.delayTimer, soundTimer := after.soundTimer, pc := after.pc,
      drawn := false, opcode := word, outbox := Outbox.empty }

/-!
## One cycle

The decoder and the rule for the program counter look at a word independently. On the words
that the decoder gives up, the rule tells family F from the other two.
-/

theorem passesOver_iff_of_unknown (h : Opcode.IsUnknown word) :
    passesOver word = true ↔ Opcode.family word = 0xF := by
  rcases h with hrefused | ⟨hfamily, _⟩
  · rw [passesOver_of_refused hrefused]
    rcases hrefused.family with hfamily | hfamily <;> simp [hfamily]
  · simp [passesOver, hfamily]

theorem passedOver_passed (hpc : m.pc.toNat ≤ 4094) (h : Opcode.IsUnknown word) :
    m.PassedOver (m.passed word) word where
  delayTimer := toNat_countDown m.delayTimer
  soundTimer := toNat_countDown m.soundTimer
  pc := by
    have hplace : (m.passed word).pc = if passesOver word then m.pc + 2 else m.pc := rfl
    rw [hplace]
    by_cases hfamily : Opcode.family word = 0xF
    · rw [if_pos ((passesOver_iff_of_unknown h).mpr hfamily), if_pos hfamily]
      exact toNat_next hpc
    · rw [if_neg (mt (passesOver_iff_of_unknown h).mp hfamily), if_neg hfamily]
  rest := rfl

theorem cycle_eq_noInstruction_iff (hword : m.memory.word? m.pc = some word) :
    m.cycle = .ok (.diagnosed (.noInstruction unknown)) after ↔
      unknown = word ∧ Opcode.IsUnknown word ∧ after = m.passed word := by
  cases hknown : Instruction.ofWord? word with
  | none =>
      have hunknown : Opcode.IsUnknown word := Instruction.ofWord?_eq_none_iff.mp hknown
      rw [cycle_of_unknown hword hknown]
      constructor
      · intro h
        cases h
        exact ⟨rfl, hunknown, rfl⟩
      · intro h
        rcases h with ⟨rfl, _, rfl⟩
        rfl
  | some instruction =>
      rw [cycle_of_known hword hknown]
      constructor
      · intro h
        cases hfailure : instruction.failure? m with
        | none | some failure =>
            rw [hfailure] at h
            cases h
      · intro h
        rw [Instruction.ofWord?_eq_none_iff.mpr h.2.1] at hknown
        cases hknown

/-!
## Batches

No reason to stop comes of a refused word: it is no jump and asks for no key, and the program
counter stays where the word was fetched.
-/

theorem passes_held_of_refused (hword : m.memory.word? m.pc = some word)
    (hrefused : Opcode.IsRefused word) (n : Nat) : (m.held word Outbox.empty n).Passes := by
  have hwaits : ¬ (m.held word Outbox.empty n).Waits word := fun hwaits => by
    rcases hrefused.family with hfamily | hfamily <;>
      exact absurd (hfamily.symm.trans hwaits.1) (by decide)
  have hjumps : ¬ (m.held word Outbox.empty n).JumpsToItself word := fun hjumps => by
    rcases hrefused.family with hfamily | hfamily <;>
      exact absurd (hfamily.symm.trans hjumps.1) (by decide)
  refine ⟨⟨_, _, holds_of_refused hword hrefused n⟩, ?_⟩
  rw [halt?_of_not_waits (word?_held hword n) hwaits, if_neg hjumps]

end Machine

namespace Runner

variable {r : Runner} {word : UInt16}

theorem runFor_of_passes_of_full {left n : Nat} (hleft : left < n)
    (hfull : r.cycles.toNat + left + 1 = UInt64.size)
    (hpasses : forall k, k ≤ left -> (r.machine.afterCycles k).Passes) :
    runFor n r = .error .trap (r.advanced left (r.machine.afterCycles (left + 1))) := by
  rcases Nat.exists_eq_add_of_lt hleft with ⟨rest, rfl⟩
  have hroom : r.cycles.toNat + left < UInt64.size := by lia
  rcases (hpasses left (Nat.le_refl left)).1 with ⟨outcome, after, hcycle⟩
  have hlast : ¬ (r.advanced left (r.machine.afterCycles left)).cycles.toNat + 1 <
      UInt64.size := by
    rw [toNat_cycles_advanced hroom, hfull]
    exact Nat.lt_irrefl _
  -- The next cycle ends before its count overflows, so the machine has gone through it.
  rw [Nat.add_assoc, runFor_add,
    runFor_of_passes left hroom fun k hk => hpasses k (Nat.le_of_lt hk)]
  dsimp only
  rw [runFor_succ, runCycle_of_full hcycle hlast, Machine.afterCycles_succ,
    Machine.cycled_of_ok hcycle]
  rfl

/-- A cycle is diagnosed for a word exactly if that is the fetched one and stands for
nothing, and then only time passes and the machine goes on behind a word of family F. With
a refused word a batch of any length ends at its limit, every cycle counted and nothing but
the timers, the drawing flag, the noted word and the requests changed. Only a count that has
no room for the cycles ends it earlier. -/
theorem unknown_words_only_take_time (r : Runner)
    (hword : r.machine.memory.word? r.machine.pc = some word) :
    (forall unknown,
      (exists after, r.machine.cycle = .ok (.diagnosed (.noInstruction unknown)) after) ↔
        unknown = word ∧ Opcode.IsUnknown word) ∧
    (forall after, r.machine.cycle = .ok (.diagnosed (.noInstruction word)) after ->
      r.machine.PassedOver after word) ∧
    (Opcode.IsRefused word -> forall n,
      (r.cycles.toNat + n < UInt64.size ->
        runFor n r = .ok .cycleLimit (r.advanced n (r.machine.held word Outbox.empty n)) ∧
        (r.advanced n (r.machine.held word Outbox.empty n)).cycles.toNat =
          r.cycles.toNat + n) ∧
      (forall left, left < n -> r.cycles.toNat + left + 1 = UInt64.size ->
        runFor n r =
          .error .trap (r.advanced left (r.machine.held word Outbox.empty (left + 1))))) := by
  have hpc := Memory.address_le_of_word? hword
  refine ⟨?_, ?_, ?_⟩
  · intro unknown
    simp only [Machine.cycle_eq_noInstruction_iff hword, exists_and_left, exists_eq, and_true]
  · intro after hcycle
    rcases (Machine.cycle_eq_noInstruction_iff hword).mp hcycle with ⟨_, hunknown, rfl⟩
    exact Machine.passedOver_passed hpc hunknown
  · intro hrefused n
    have hafter := Machine.afterCycles_of_holds (Machine.holds_of_refused hword hrefused)
    have hpasses : forall k, (r.machine.afterCycles k).Passes := fun k =>
      hafter k ▸ Machine.passes_held_of_refused hword hrefused k
    constructor
    · intro hroom
      rw [← hafter n]
      exact ⟨runFor_of_passes n hroom fun k _ => hpasses k, toNat_cycles_advanced hroom⟩
    · intro left hleft hfull
      rw [← hafter (left + 1)]
      exact runFor_of_passes_of_full hleft hfull fun k _ => hpasses k

def refusing : Runner where
  options := { program := "refused.ch8" }
  machine := { Machine.loaded [0x80, 0x08] with delayTimer := 60, drawn := true }
  cycles := 0xFFFFFFFFFFFFFF00

theorem refusing_takes_time :
    (exists after, refusing.machine.cycle = .ok (.diagnosed (.noInstruction 0x8008)) after ∧
      refusing.machine.PassedOver after 0x8008) ∧
    runFor 200 refusing =
      .ok .cycleLimit
        (refusing.advanced 200 (refusing.machine.held 0x8008 Outbox.empty 200)) ∧
    runFor 300 refusing =
      .error .trap (refusing.advanced 255 (refusing.machine.held 0x8008 Outbox.empty 256)) := by
  have hfit : [(0x80 : UInt8), 0x08].length ≤ 3584 := by decide
  have hplace : refusing.machine.pc.toNat = 512 + 0 := rfl
  have hhigh : [(0x80 : UInt8), 0x08][0]? = some 0x80 := rfl
  have hlow : [(0x80 : UInt8), 0x08][0 + 1]? = some 0x08 := rfl
  have hword : refusing.machine.memory.word? refusing.machine.pc = some 0x8008 :=
    Machine.word?_loaded hfit hplace hhigh hlow
  have hrefused : Opcode.IsRefused 0x8008 :=
    .arithmetic (by decide) (by decide) (by decide)
  have hlaws := unknown_words_only_take_time refusing hword
  rcases (hlaws.1 0x8008).mpr ⟨rfl, Or.inl hrefused⟩ with ⟨after, hcycle⟩
  exact ⟨⟨after, hcycle, hlaws.2.1 after hcycle⟩,
    ((hlaws.2.2 hrefused 200).1 (by decide)).1,
    (hlaws.2.2 hrefused 300).2 255 (by decide) (by decide)⟩

end Runner

end Chip8
