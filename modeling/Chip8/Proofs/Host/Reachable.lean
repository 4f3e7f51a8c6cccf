import Chip8.Proofs.Cycle.Cases
import Chip8.Proofs.Host.Operation
import Chip8.Proofs.Instruction.Footprint
import Chip8.Proofs.Screen.Flips

/-!
# Reachable machines

What holds of every machine that a host can reach from power-on without writing its
parts directly. The program counter can leave memory, but only so far as a skip, a
computed jump or a return address takes it; the return addresses are bounded because
calls are made inside memory only.
-/

namespace Chip8

namespace Screen

variable {screen : Screen}

def IsBinary (screen : Screen) : Prop :=
  forall (i : Nat) (hi : i < 2048), screen[i] = 0 ∨ screen[i] = 1

theorem isBinary_blank : IsBinary blank := by
  intro i hi
  exact Or.inl (Vector.getElem_replicate hi)

theorem IsBinary.flip (h : screen.IsBinary) (i : Nat) : (screen.flip i).IsBinary := by
  intro k hk
  rw [getElem_flip]
  rcases h k hk with hdark | hlit
  · rw [hdark]
    split
    · exact Or.inr rfl
    · exact Or.inl rfl
  · rw [hlit]
    split
    · exact Or.inl rfl
    · exact Or.inr rfl

theorem IsBinary.flipAll (h : screen.IsBinary) (pixels : List Nat) :
    (screen.flipAll pixels).2.IsBinary := by
  rw [flipAll_screen]
  induction pixels generalizing screen with
  | nil => exact h
  | cons i rest ih => exact ih (h.flip i)

end Screen

theorem CallStack.mem_of_mem_pushed {stack : CallStack} {address other : UInt16}
    (h : other ∈ (stack.pushed address).entries) :
    other = address ∨ other ∈ stack.entries := by
  unfold pushed at h
  split at h
  · exact List.mem_cons.mp h
  · exact Or.inr h

theorem Word.toNat_add_of_lt {a b : UInt16} (h : a.toNat + b.toNat < 65536) :
    (a + b).toNat = a.toNat + b.toNat := by
  rw [UInt16.toNat_add]
  exact Nat.mod_eq_of_lt h

namespace Machine

structure WellFormed (m : Machine) : Prop where
  depth : m.stack.depth ≤ 16
  screen : m.screen.IsBinary
  pc : m.pc.toNat ≤ 4350
  returns : ∀ address ∈ m.stack.entries, 2 ≤ address.toNat ∧ address.toNat ≤ 4096

theorem wellFormed_powerOn : powerOn.WellFormed where
  depth := Nat.zero_le 16
  screen := Screen.isBinary_blank
  pc := by decide
  returns := by
    intro address h
    cases h

variable {m : Machine} {word : UInt16}

/-!
## One cycle

An instruction runs with the program counter inside memory, which bounds the address
that a call remembers and every target.
-/

theorem toNat_next (hpc : m.pc.toNat ≤ 4094) : (m.pc + 2).toNat = m.pc.toNat + 2 :=
  Word.toNat_add_of_lt (pc_add_lt hpc (Nat.le_add_left 2 2))

theorem toNat_skip (hpc : m.pc.toNat ≤ 4094) : (m.pc + 4).toNat = m.pc.toNat + 4 :=
  Word.toNat_add_of_lt (pc_add_lt hpc (Nat.le_refl 4))

theorem mem_entries_effect {instruction : Instruction} {address : UInt16}
    (h : address ∈ (instruction.effect m).stack.entries) :
    address ∈ m.stack.entries ∨ address = m.pc + 2 := by
  cases instruction with
  | ret => exact Or.inl (List.mem_of_mem_tail h)
  | call target =>
      rcases CallStack.mem_of_mem_pushed h with hnew | hold
      · exact Or.inr hnew
      · exact Or.inl hold
  | _ =>
      rw [Instruction.stack_effect_of_ne (fun heq => by cases heq)
        fun target heq => by cases heq] at h
      exact Or.inl h

theorem isBinary_effect (h : m.screen.IsBinary) (instruction : Instruction) :
    (instruction.effect m).screen.IsBinary := by
  cases instruction with
  | clearScreen => exact Screen.isBinary_blank
  | draw x y rows => exact h.flipAll _
  | _ =>
      rw [Instruction.screen_effect_of_ne (fun heq => by cases heq)
        fun x y rows heq => by cases heq]
      exact h

theorem toNat_target_le (h : m.WellFormed) (hpc : m.pc.toNat ≤ 4094)
    (instruction : Instruction) : (instruction.target m).toNat ≤ 4350 := by
  have hnext : (m.pc + 2).toNat ≤ 4350 := by
    rw [toNat_next hpc]
    lia
  cases instruction with
  | ret =>
      -- The only target that comes from the state, hence the bound on return addresses.
      have hreturns := h.returns
      unfold Instruction.target
      dsimp only
      cases hentries : m.stack.entries with
      | nil => exact Nat.zero_le 4350
      | cons address rest =>
          rw [hentries] at hreturns
          exact Nat.le_trans (hreturns address List.mem_cons_self).2 (by decide)
  | jump target | call target =>
      show target.toWord.toNat ≤ 4350
      rw [target.toNat_toWord]
      exact Nat.le_trans (Nat.le_of_lt target.isLt) (by decide)
  | jumpOffset base =>
      have hsum := jumpOffset_le (m := m) base
      show (base.toWord + (m.registers.get offsetRegister).toUInt16).toNat ≤ 4350
      rw [Word.toNat_add_of_lt (Nat.lt_of_le_of_lt hsum (by decide))]
      exact hsum
  | skipIf condition =>
      have hskip : (m.pc + 4).toNat ≤ 4350 := by
        rw [toNat_skip hpc]
        lia
      unfold Instruction.target
      dsimp only
      split
      · exact hskip
      · exact hnext
  | awaitKey x =>
      unfold Instruction.target
      dsimp only
      split
      · exact hnext
      · exact h.pc
  | _ => exact hnext

theorem WellFormed.executed (h : m.WellFormed) (hpc : m.pc.toNat ≤ 4094)
    (instruction : Instruction) : (m.executed word instruction).WellFormed where
  depth := (m.executed word instruction).stack.length_le
  screen := isBinary_effect (m := m.fetched word) h.screen instruction
  pc := toNat_target_le h hpc instruction
  returns := by
    intro address haddress
    rcases mem_entries_effect (m := m.fetched word) haddress with hold | hnew
    · exact h.returns address hold
    · have hnext : address.toNat = m.pc.toNat + 2 := by
        rw [hnew]
        exact toNat_next hpc
      lia

theorem WellFormed.passed (h : m.WellFormed) (hpc : m.pc.toNat ≤ 4094) :
    (m.passed word).WellFormed where
  depth := h.depth
  screen := h.screen
  pc := by
    show (if passesOver word then m.pc + 2 else m.pc).toNat ≤ 4350
    split
    · rw [toNat_next hpc]
      lia
    · exact h.pc
  returns := h.returns

theorem WellFormed.cycle (h : m.WellFormed) : (Failure.stateOf m.cycle).WellFormed := by
  cases cycle_cases m with
  | outside _ hcycle =>
      rw [hcycle]
      exact ⟨h.depth, h.screen, h.pc, h.returns⟩
  | unknown word hword _ hcycle =>
      rw [hcycle]
      exact h.passed (Memory.address_le_of_word? hword)
  | failed word instruction failure _ _ _ hcycle =>
      rw [hcycle]
      exact ⟨h.depth, h.screen, h.pc, h.returns⟩
  | executed word instruction hword _ _ hcycle =>
      rw [hcycle]
      exact h.executed (Memory.address_le_of_word? hword) instruction

/-!
## Every operation
-/

theorem WellFormed.load (h : m.WellFormed) (program : List UInt8) :
    ((Operation.load program).after m).WellFormed := by
  rw [Operation.after_load]
  split
  · exact ⟨h.depth, h.screen, h.pc, h.returns⟩
  · exact h

theorem WellFormed.after (h : m.WellFormed) (operation : Operation) :
    (operation.after m).WellFormed := by
  cases operation with
  | reset =>
      have hpower := wellFormed_powerOn
      rw [Operation.after_reset]
      exact ⟨hpower.depth, hpower.screen, hpower.pc, hpower.returns⟩
  | load program => exact h.load program
  | loadFile content =>
      rw [Operation.after_loadFile]
      split
      · exact h.load _
      · exact h
  | press key down =>
      rw [Operation.after_press]
      split
      · exact ⟨h.depth, h.screen, h.pc, h.returns⟩
      · exact h
  | countDown =>
      rw [Operation.after_countDown]
      exact ⟨h.depth, h.screen, h.pc, h.returns⟩
  | random =>
      rw [Operation.after_random]
      exact ⟨h.depth, h.screen, h.pc, h.returns⟩
  | cycle outbox =>
      have hreceived : ({ m with outbox } : Machine).WellFormed :=
        ⟨h.depth, h.screen, h.pc, h.returns⟩
      rw [Operation.after_cycle]
      exact hreceived.cycle

/-- Whatever a host does to a machine from power-on, short of writing its parts directly,
at most sixteen calls are in progress, every pixel is lit or dark, the program counter is
at most 255 past the last address, and every return address is the one behind a word of
memory. -/
theorem wellFormed_afterAll_powerOn (operations : List Operation) :
    (Operation.afterAll operations powerOn).WellFormed :=
  Operation.afterAll_induction (fun operation _ h => h.after operation) operations
    wellFormed_powerOn

end Machine

end Chip8
