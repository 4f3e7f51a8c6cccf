import Chip8.Proofs.Host.Loading
import Chip8.Runner

/-!
# Loading again and again

An attempt to load a program replaces as much of memory as the program is long, or fails and
leaves everything as it was. So after any number of attempts a byte of memory comes from the
last program loaded that reached it, and behind a short program the end of a longer one
stays in place.
-/

namespace Chip8

namespace Memory

def overlaid (memory : Memory) (programs : List (List UInt8)) : Memory :=
  programs.foldl (fun memory program => memory.write programStart program) memory

/-- The byte at place `i` of the last program that is longer than `i`. -/
def lastByte? (programs : List (List UInt8)) (i : Nat) : Option UInt8 :=
  (programs.filterMap fun program => program[i]?).getLast?

variable {memory : Memory}

theorem getElem_write_program (program : List UInt8) (i : Nat) (h : 512 + i < 4096) :
    (Bytes.write memory programStart program)[512 + i] =
      program[i]?.getD memory[512 + i] := by
  have hwritten := Bytes.getElem_write memory 512 program (512 + i) h
  rw [if_pos (Nat.le_add_right 512 i), Nat.add_sub_cancel_left] at hwritten
  exact hwritten

theorem lastByte?_cons (program : List UInt8) (rest : List (List UInt8)) (i : Nat) :
    lastByte? (program :: rest) i = (lastByte? rest i).or program[i]? := by
  unfold lastByte?
  rw [List.filterMap_cons]
  cases program[i]? with
  | none => exact (Option.or_none).symm
  | some byte =>
      rw [List.getLast?_cons]
      cases (rest.filterMap fun program => program[i]?).getLast? <;> rfl

theorem getElem_overlaid (programs : List (List UInt8)) (i : Nat) (h : 512 + i < 4096) :
    (memory.overlaid programs)[512 + i] =
      (lastByte? programs i).getD memory[512 + i] := by
  induction programs generalizing memory with
  | nil => rfl
  | cons program rest ih =>
      rw [lastByte?_cons, Option.getD_or, ← getElem_write_program program i h]
      exact ih

theorem getElem_overlaid_of_lt (programs : List (List UInt8)) (address : Nat)
    (h : address < 4096) (hbefore : address < 512) :
    (memory.overlaid programs)[address] = memory[address] := by
  induction programs generalizing memory with
  | nil => rfl
  | cons program rest ih =>
      have hkept : (Bytes.write memory programStart program)[address] = memory[address] := by
        have hwritten := Bytes.getElem_write memory 512 program address h
        rw [if_neg (Nat.not_le_of_lt hbefore)] at hwritten
        exact hwritten
      have hrest : (overlaid (Bytes.write memory programStart program) rest)[address] =
          (Bytes.write memory programStart program)[address] := ih
      exact hrest.trans hkept

end Memory

def Runner.withMemory (r : Runner) (memory : Memory) : Runner :=
  { r with machine := { r.machine with memory } }

/-- A way to load a program: its bytes are given, or what reading a file gave, or the file
that the options name is read. -/
inductive LoadAttempt where
  | bytes (program : List UInt8)
  | file (content : Except FileFault (List UInt8))
  | configured (read : String → Except FileFault (List UInt8))

namespace LoadAttempt

def run : LoadAttempt → RunnerM (Option Nat)
  | .bytes program => do
      Runner.onMachine (Machine.load program)
      return none
  | .file content => return some (← Runner.onMachine (Machine.loadFile content))
  | .configured read => do
      let path := (← get).options.program
      return some (← Runner.onMachine (Machine.loadFile (read path)))

def content (options : Options) : LoadAttempt → Except FileFault (List UInt8)
  | .bytes program => .ok program
  | .file content => content
  | .configured read => read options.program

def answer (count : Nat) : LoadAttempt → Option Nat
  | .bytes _ => none
  | .file _ | .configured _ => some count

def loaded? (options : Options) (attempt : LoadAttempt) : Option (List UInt8) :=
  match attempt.content options with
  | .ok program => if program.length ≤ 3584 then some program else none
  | .error _ => none

def afterAll (attempts : List LoadAttempt) (r : Runner) : Runner :=
  attempts.foldl (fun r attempt => Failure.stateOf (attempt.run r)) r

variable {attempt : LoadAttempt} {r after : Runner} {program : List UInt8}

/-!
## One attempt
-/

theorem run_eq (attempt : LoadAttempt) (r : Runner) :
    attempt.run r =
      match Machine.loadFile (attempt.content r.options) r.machine with
      | .ok count machine => .ok (attempt.answer count) { r with machine }
      | .error failure machine => .error failure { r with machine } := by
  cases attempt with
  | bytes program =>
      have hload : Machine.loadFile (.ok program) r.machine =
          (do Machine.load program; return program.length : MachineM Nat) r.machine :=
        Machine.loadFile_of_ok program r.machine
      simp only [run, content, hload, Failure.bind_apply, Runner.onMachine]
      cases Machine.load program r.machine <;> rfl
  | file loaded =>
      simp only [run, content, Failure.bind_apply, Runner.onMachine]
      cases Machine.loadFile loaded r.machine <;> rfl
  | configured read =>
      simp only [run, content, Failure.bind_apply, Failure.get_apply, Runner.onMachine]
      cases Machine.loadFile (read r.options.program) r.machine <;> rfl

theorem run_of_unread {fault : FileFault} (h : attempt.content r.options = .error fault) :
    attempt.run r = .error (.error (.file fault)) r := by
  rw [run_eq, h, Machine.loadFile_of_fault]

theorem run_of_long (h : attempt.content r.options = .ok program)
    (hlong : 3584 < program.length) :
    attempt.run r = .error (.error (.programTooLong program.length 3584)) r := by
  rw [run_eq, h, Machine.loadFile_of_long hlong]

theorem run_of_fit (h : attempt.content r.options = .ok program)
    (hfit : program.length ≤ 3584) :
    attempt.run r =
      .ok (attempt.answer program.length)
        (r.withMemory (r.machine.memory.overlaid [program])) := by
  rw [run_eq, h, Machine.loadFile_of_fit hfit]
  rfl

inductive LoadCase (attempt : LoadAttempt) (r : Runner) : Prop where
  | unread (fault : FileFault) (hcontent : attempt.content r.options = .error fault)
      (hrun : attempt.run r = .error (.error (.file fault)) r)
  | long (program : List UInt8) (hcontent : attempt.content r.options = .ok program)
      (hlong : 3584 < program.length)
      (hrun : attempt.run r = .error (.error (.programTooLong program.length 3584)) r)
  | fit (program : List UInt8) (hcontent : attempt.content r.options = .ok program)
      (hfit : program.length ≤ 3584)
      (hrun : attempt.run r =
        .ok (attempt.answer program.length)
          (r.withMemory (r.machine.memory.overlaid [program])))

theorem load_cases (attempt : LoadAttempt) (r : Runner) : attempt.LoadCase r := by
  cases hcontent : attempt.content r.options with
  | error fault => exact .unread fault hcontent (run_of_unread hcontent)
  | ok program =>
      rcases Nat.lt_or_ge 3584 program.length with hlong | hfit
      · exact .long program hcontent hlong (run_of_long hcontent hlong)
      · exact .fit program hcontent hfit (run_of_fit hcontent hfit)

inductive Refuses (attempt : LoadAttempt) (options : Options) : Failure → Prop where
  | unread {fault : FileFault} (hcontent : attempt.content options = .error fault) :
      Refuses attempt options (.error (.file fault))
  | long {program : List UInt8} (hcontent : attempt.content options = .ok program)
      (hlong : 3584 < program.length) :
      Refuses attempt options (.error (.programTooLong program.length 3584))

theorem run_ok_iff :
    (exists count after, attempt.run r = .ok count after) ↔
      exists program, attempt.content r.options = .ok program ∧ program.length ≤ 3584 := by
  constructor
  · rintro ⟨count, after, hok⟩
    cases attempt.load_cases r with
    | unread _ _ hrun | long _ _ _ hrun =>
        rw [hrun] at hok
        cases hok
    | fit program hcontent hfit _ => exact ⟨program, hcontent, hfit⟩
  · rintro ⟨program, hcontent, hfit⟩
    exact ⟨_, _, run_of_fit hcontent hfit⟩

theorem of_run_error {failure : Failure} (h : attempt.run r = .error failure after) :
    after = r ∧ attempt.Refuses r.options failure := by
  cases attempt.load_cases r with
  | unread fault hcontent hrun =>
      rw [hrun] at h
      cases h
      exact ⟨rfl, .unread hcontent⟩
  | long program hcontent hlong hrun =>
      rw [hrun] at h
      cases h
      exact ⟨rfl, .long hcontent hlong⟩
  | fit _ _ _ hrun =>
      rw [hrun] at h
      cases h

theorem write?_of_fit (memory : Memory) (hfit : program.length ≤ 3584) :
    Bytes.write? memory Memory.programStart program = some (memory.overlaid [program]) :=
  Bytes.write?_eq_some_iff.mpr ⟨Nat.add_le_add_left hfit 512, rfl⟩

/-!
## Many attempts
-/

theorem afterAll_eq (attempts : List LoadAttempt) (r : Runner) :
    afterAll attempts r =
      r.withMemory (r.machine.memory.overlaid (attempts.filterMap (loaded? r.options))) := by
  induction attempts generalizing r with
  | nil => rfl
  | cons attempt rest ih =>
      have hrest : afterAll (attempt :: rest) r =
          afterAll rest (Failure.stateOf (attempt.run r)) := rfl
      rw [hrest]
      cases attempt.load_cases r with
      | unread fault hcontent hrun =>
          have hloaded : attempt.loaded? r.options = none := by simp only [loaded?, hcontent]
          rw [hrun, List.filterMap_cons_none hloaded]
          exact ih r
      | long program hcontent hlong hrun =>
          have hloaded : attempt.loaded? r.options = none := by
            simp only [loaded?, hcontent, if_neg (Nat.not_le_of_lt hlong)]
          rw [hrun, List.filterMap_cons_none hloaded]
          exact ih r
      | fit program hcontent hfit hrun =>
          have hloaded : attempt.loaded? r.options = some program := by
            simp only [loaded?, hcontent, if_pos hfit]
          rw [hrun, List.filterMap_cons_some hloaded]
          exact ih (r.withMemory (r.machine.memory.overlaid [program]))

/-- An attempt to load a program succeeds exactly if the program can be read and has at most
3584 bytes. Then it is written into its place, which it does not leave, and if it comes from
a file its length is given back. A failing attempt tells why and changes nothing. So after
any attempts each byte from address 512 on is that of the last loaded program that reaches
so far, or the one from before, and everything else is as it was. -/
theorem loads_overlay :
    (forall (attempt : LoadAttempt) (r : Runner),
      ((exists count after, attempt.run r = .ok count after) ↔
        exists program, attempt.content r.options = .ok program ∧ program.length ≤ 3584) ∧
      (forall program, attempt.content r.options = .ok program -> program.length ≤ 3584 ->
        exists memory, Bytes.write? r.machine.memory Memory.programStart program = some memory ∧
          attempt.run r = .ok (attempt.answer program.length) (r.withMemory memory)) ∧
      (forall failure after, attempt.run r = .error failure after ->
        after = r ∧ attempt.Refuses r.options failure)) ∧
    (forall (attempts : List LoadAttempt) (r : Runner),
      exists memory, afterAll attempts r = r.withMemory memory ∧
        (forall i, forall _ : 512 + i < 4096,
          memory[512 + i] =
            (Memory.lastByte? (attempts.filterMap (loaded? r.options)) i).getD
              r.machine.memory[512 + i]) ∧
        (forall address, forall _ : address < 512,
          memory[address] = r.machine.memory[address])) := by
  constructor
  · intro attempt r
    refine ⟨run_ok_iff, fun program hcontent hfit => ?_, fun failure after h => of_run_error h⟩
    exact ⟨_, write?_of_fit r.machine.memory hfit, run_of_fit hcontent hfit⟩
  · intro attempts r
    refine ⟨_, afterAll_eq attempts r, fun i hi => ?_, fun address haddress => ?_⟩
    · exact Memory.getElem_overlaid _ i hi
    · exact Memory.getElem_overlaid_of_lt _ address (Nat.lt_trans haddress (by decide)) haddress

def awaitingProgram : Runner where
  options := { program := "missing.ch8" }

def filling (count : Nat) : List UInt8 :=
  List.replicate count 0xAA

/-- Fills memory to its last byte, tries one byte more, loads a short file and misses the
configured one. -/
def refilling : List LoadAttempt :=
  [.bytes (filling 3584), .bytes (filling 3585), .file (.ok [0x12, 0x00]),
    .configured fun _ => .error .notFound]

theorem refilling_overlays :
    (exists memory, afterAll refilling awaitingProgram = awaitingProgram.withMemory memory ∧
      memory[512]? = some 0x12 ∧ memory[514]? = some 0xAA ∧ memory[4095]? = some 0xAA ∧
      memory[511]? = some 0) ∧
    (exists memory, (file (.ok [0x12, 0x00])).run awaitingProgram =
      .ok (some 2) (awaitingProgram.withMemory memory)) ∧
    (bytes (filling 3585)).Refuses awaitingProgram.options
      (.error (.programTooLong (filling 3585).length 3584)) := by
  have hlength : forall count, (filling count).length = count := fun _ => List.length_replicate
  have hlong : 3584 < (filling 3585).length := by
    rw [hlength]
    decide
  have hrun : (bytes (filling 3585)).run awaitingProgram = _ := run_of_long rfl hlong
  refine ⟨?_, ?_, ((loads_overlay.1 _ awaitingProgram).2.2 _ _ hrun).2⟩
  · rcases loads_overlay.2 refilling awaitingProgram with ⟨memory, hafter, hreached, hkept⟩
    have hloaded : refilling.filterMap (loaded? awaitingProgram.options) =
        [filling 3584, [0x12, 0x00]] := by
      simp [refilling, loaded?, content, hlength]
    have hlast : Memory.lastByte? [filling 3584, [0x12, 0x00]] 3583 = some 0xAA := by
      have hbyte : (filling 3584)[3583]? = some 0xAA :=
        List.getElem?_replicate_of_lt (by decide)
      simp [Memory.lastByte?, hbyte]
    rw [hloaded] at hreached
    refine ⟨memory, hafter, ?_, ?_, ?_, ?_⟩
    · rw [Vector.getElem?_eq_getElem (by decide)]
      exact congrArg some (hreached 0 (by decide))
    · rw [Vector.getElem?_eq_getElem (by decide)]
      exact congrArg some (hreached 2 (by decide))
    · rw [Vector.getElem?_eq_getElem (by decide), hreached 3583 (by decide), hlast]
      rfl
    · rw [Vector.getElem?_eq_getElem (by decide), hkept 511 (by decide)]
      decide +kernel
  · rcases (loads_overlay.1 (file (.ok [0x12, 0x00])) awaitingProgram).2.1 [0x12, 0x00] rfl
      (by decide) with ⟨memory, _, hrun⟩
    exact ⟨memory, hrun⟩

end LoadAttempt

end Chip8
