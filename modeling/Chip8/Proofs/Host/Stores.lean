import Chip8.Proofs.Cycle.WriteSets
import Chip8.Proofs.Host.Operation

/-!
# What a history stores

A host puts bytes into memory by loading and by resetting. Between these, a byte of memory
is what it was unless a cycle executed a word that stores there, however the program
rewrites itself and whatever else the host does. So the font and the text of a program
change in no other way.
-/

namespace Chip8

namespace Operation

def fillsMemory : Operation → Bool
  | .reset | .load _ | .loadFile _ => true
  | .press _ _ | .countDown | .random | .cycle _ => false

def Stores (operation : Operation) (m : Machine) (address : Nat) : Prop :=
  match operation with
  | .cycle outbox => ({ m with outbox } : Machine).Executes (Opcode.StoresAt m.index.toNat address)
  | _ => False

theorem stores_of_changed {operation : Operation} {m : Machine} {address : Nat}
    (h : address < 4096) (hfills : operation.fillsMemory = false)
    (hchanged : (operation.after m).memory[address] ≠ m.memory[address]) :
    operation.Stores m address := by
  cases operation with
  | reset | load program | loadFile content => cases hfills
  | press key down =>
      rw [after_press] at hchanged
      split at hchanged <;> exact absurd rfl hchanged
  | countDown | random => exact absurd rfl hchanged
  | cycle outbox =>
      rw [after_cycle] at hchanged
      exact ({ m with outbox } : Machine).confined.memory address h hchanged

theorem exists_stores_of_changed (operations : List Operation) {m : Machine} {address : Nat}
    (h : address < 4096) (hfills : ∀ operation ∈ operations, operation.fillsMemory = false)
    (hchanged : (afterAll operations m).memory[address] ≠ m.memory[address]) :
    exists before operation rest, operations = before ++ operation :: rest ∧
      operation.Stores (afterAll before m) address := by
  induction operations generalizing m with
  | nil => exact absurd rfl hchanged
  | cons operation rest ih =>
      by_cases hfirst : (operation.after m).memory[address] = m.memory[address]
      · rw [← hfirst] at hchanged
        have hrest := fun other hother => hfills other (List.mem_cons_of_mem operation hother)
        rcases ih hrest hchanged with ⟨before, storing, behind, rfl, hstores⟩
        exact ⟨operation :: before, storing, behind, rfl, hstores⟩
      · have hstores := stores_of_changed h (hfills operation List.mem_cons_self) hfirst
        exact ⟨[], operation, rest, rfl, hstores⟩

/-- A cycle changes no part of the machine without executing a word that writes it, up to
the timers that count down. So as long as the host neither loads nor resets, a byte of
memory differs from what it was only if a cycle executed a word that stores it. -/
theorem changes_are_executed :
    (forall m : Machine, m.Confined) ∧
    (forall (operations : List Operation) (m : Machine) (address : Nat) (h : address < 4096),
      (∀ operation ∈ operations, operation.fillsMemory = false) ->
      (afterAll operations m).memory[address] ≠ m.memory[address] ->
        exists before operation rest, operations = before ++ operation :: rest ∧
          operation.Stores (afterAll before m) address) :=
  ⟨Machine.confined, fun operations _ _ h => exists_stores_of_changed operations h⟩

def selfStoring : Machine :=
  { Machine.powerOn with
    memory := Bytes.write (Bytes.zeros 4096) 0x200 [0xF1, 0x55]
    registers := #v[0xA2, 0, 0, 0, 0, 0, 0, 0, 0, 0, 0, 0, 0, 0, 0, 0]
    index := 0x200 }

def cyclesAmongOthers : List Operation :=
  [.press 3 true, .cycle ⟨[.awaitKey], by decide⟩, .random,
    .cycle Outbox.empty]

theorem selfStoring_change_executed :
    (∀ operation ∈ cyclesAmongOthers, operation.fillsMemory = false) ∧
    (afterAll cyclesAmongOthers selfStoring).memory[0x200] ≠ selfStoring.memory[0x200] ∧
    exists before operation rest, cyclesAmongOthers = before ++ operation :: rest ∧
      operation.Stores (afterAll before selfStoring) 0x200 := by
  have hfills : ∀ operation ∈ cyclesAmongOthers, operation.fillsMemory = false := by
    intro operation hmember
    simp only [cyclesAmongOthers, List.mem_cons, List.not_mem_nil, or_false] at hmember
    rcases hmember with rfl | rfl | rfl | rfl <;> rfl
  have hchanged : (afterAll cyclesAmongOthers selfStoring).memory[0x200] ≠
      selfStoring.memory[0x200] := by
    decide +kernel
  exact ⟨hfills, hchanged, changes_are_executed.2 cyclesAmongOthers selfStoring 0x200
    (by decide) hfills hchanged⟩

end Operation

end Chip8
