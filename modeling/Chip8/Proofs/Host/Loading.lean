import Chip8.Proofs.Host.Operation
import Chip8.Proofs.Instruction.Execution

/-!
# Loading a program

A program of at most 3584 bytes takes its place in memory. A longer one and a file that
could not be read are refused, and the machine is left as it was.
-/

namespace Chip8

namespace Machine

variable {m : Machine} {program : List UInt8}

def loaded (program : List UInt8) : Machine :=
  { powerOn with memory := powerOn.memory.write Memory.programStart program }

theorem load_of_fit (hfit : program.length ≤ 3584) :
    load program m = .ok () { m with memory := m.memory.write Memory.programStart program } := by
  have hload : m.memory.load program = .ok (m.memory.write Memory.programStart program) :=
    if_pos hfit
  simp only [load, Failure.bind_apply, Failure.get_apply, hload, Failure.attempt_ok]
  rfl

theorem load_of_long (hlong : 3584 < program.length) :
    load program m = .error (.error (.programTooLong program.length 3584)) m := by
  have hload : m.memory.load program = .error (.programTooLong program.length 3584) :=
    if_neg (Nat.not_le_of_lt hlong)
  simp only [load, Failure.bind_apply, Failure.get_apply, hload, Failure.attempt_error]

theorem loadFile_of_fault (fault : FileFault) (m : Machine) :
    loadFile (.error fault) m = .error (.error (.file fault)) m :=
  rfl

theorem loadFile_of_ok (program : List UInt8) (m : Machine) :
    loadFile (.ok program) m = (do load program; return program.length : MachineM Nat) m :=
  rfl

theorem loadFile_of_long (hlong : 3584 < program.length) :
    loadFile (.ok program) m = .error (.error (.programTooLong program.length 3584)) m := by
  rw [loadFile_of_ok, Failure.bind_of_error (load_of_long hlong)]

theorem loadFile_of_fit (hfit : program.length ≤ 3584) :
    loadFile (.ok program) m =
      .ok program.length
        { m with memory := m.memory.write Memory.programStart program } := by
  rw [loadFile_of_ok, Failure.bind_of_ok (load_of_fit hfit)]
  rfl

/-!
## The program in its place
-/

theorem getElem_loaded {i k : Nat} {byte : UInt8} (h : i < 4096) (hplace : i = 512 + k)
    (hbyte : program[k]? = some byte) : (loaded program).memory[i] = byte := by
  have hwritten := Bytes.getElem_write powerOn.memory 512 program i h
  have hbehind : i - 512 = k := by lia
  rw [if_pos (by lia), hbehind, hbyte] at hwritten
  exact hwritten

theorem word?_loaded {address : UInt16} {k : Nat} {high low : UInt8}
    (hfit : program.length ≤ 3584) (hplace : address.toNat = 512 + k)
    (hhigh : program[k]? = some high) (hlow : program[k + 1]? = some low) :
    (loaded program).memory.word? address = some (Word.ofBytes high low) := by
  have hinside : k + 1 < program.length := (List.getElem?_eq_some_iff.mp hlow).1
  have hlast : address.toNat + 1 < 4096 := by lia
  have hnext : address.toNat + 1 = 512 + (k + 1) := by lia
  rw [Memory.word?, dif_pos hlast, getElem_loaded (Nat.lt_of_succ_lt hlast) hplace hhigh,
    getElem_loaded hlast hnext hlow]

end Machine

end Chip8
