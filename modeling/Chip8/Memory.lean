import Chip8.Bytes
import Chip8.Error
import Chip8.Font
import Chip8.Word

/-!
# Memory

4096 bytes. The font lies at the start and programs are loaded from address `0x200`
on, up to the end. Words are read with the high byte first.
-/

namespace Chip8

abbrev Memory := Bytes 4096

namespace Memory

def size : Nat := 4096

def programStart : Nat := 0x200

def programLimit : Nat := size - programStart

def powerOn : Memory :=
  (Bytes.zeros 4096).write Font.base.toNat Font.glyphs

/-- Refuses a range of `len` addresses from `start` on that does not end inside memory,
and names its last address. An empty range is always accepted. -/
def checkSpan (start len : Nat) : Except Error Unit :=
  if len = 0 then .ok ()
  else if start + len - 1 < size then .ok ()
  else .error (.addressOutside (start + len - 1))

def word? (memory : Memory) (address : UInt16) : Option UInt16 :=
  if h : address.toNat + 1 < 4096 then
    some (Word.ofBytes memory[address.toNat] memory[address.toNat + 1])
  else none

def load (memory : Memory) (program : List UInt8) : Except Error Memory :=
  if program.length ≤ programLimit then .ok (memory.write programStart program)
  else .error (.programTooLong program.length programLimit)

theorem checkSpan_eq_ok_iff {start len : Nat} :
    checkSpan start len = .ok () ↔ len = 0 ∨ start + len ≤ 4096 := by
  unfold checkSpan size
  split
  · rename_i hempty
    exact ⟨fun _ => Or.inl hempty, fun _ => rfl⟩
  · rename_i hlen
    split
    · rename_i hlast
      exact ⟨fun _ => Or.inr (by lia), fun _ => rfl⟩
    · rename_i hlast
      constructor
      · intro h
        cases h
      · intro h
        rcases h with hempty | hfit
        · exact absurd hempty hlen
        · exact absurd (by lia) hlast

theorem checkSpan_eq_error_iff {start len : Nat} {cause : Error} :
    checkSpan start len = .error cause ↔
      len ≠ 0 ∧ 4096 < start + len ∧ cause = .addressOutside (start + len - 1) := by
  unfold checkSpan size
  split
  · rename_i hempty
    constructor
    · intro h
      cases h
    · intro h
      exact absurd hempty h.1
  · rename_i hlen
    split
    · simp only [reduceCtorEq, false_iff]
      lia
    · constructor
      · intro h
        cases h
        exact ⟨hlen, by lia, rfl⟩
      · intro h
        rw [h.2.2]

theorem slice?_eq_none_of_checkSpan {memory : Memory} {start len : Nat}
    (hcheck : checkSpan start len = .ok ()) (hslice : Bytes.slice? memory start len = none) :
    len = 0 ∧ 4096 < start := by
  rw [Bytes.slice?_eq_none_iff] at hslice
  cases checkSpan_eq_ok_iff.mp hcheck with
  | inl hempty => exact ⟨hempty, by lia⟩
  | inr hfit => lia

end Memory

end Chip8
