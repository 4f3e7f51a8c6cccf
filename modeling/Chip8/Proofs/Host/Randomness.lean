import Chip8.Proofs.Cycle.Succession
import Chip8.Proofs.Instruction.Failures
import Chip8.Proofs.Instruction.Footprint

/-!
# Random bytes

A cycle draws a random byte if it fetches a word of family C, one byte only, and no other
cycle touches the generator. So the bytes that a machine draws after a reset, for its
program and for its host, are those of the seed in their order, whatever else happens.
-/

namespace Chip8

namespace Random.Generator

def behind (generator : Generator) (count : Nat) : Generator :=
  Nat.iterate (fun place => place.next.2) count generator

def byteAt (generator : Generator) (j : Nat) : UInt8 :=
  (generator.behind j).next.1

theorem behind_succ (generator : Generator) (count : Nat) :
    generator.behind (count + 1) = (generator.behind count).next.2 :=
  Function.iterate_succ_apply' (fun place : Generator => place.next.2) count generator

end Random.Generator

namespace Machine

variable {m : Machine} {word : UInt16}

def seedByte (j : Nat) : UInt8 :=
  (Random.Generator.ofSeed seed).byteAt j

def drawsRandom (m : Machine) : Bool :=
  (m.memory.word? m.pc).any fun word => Opcode.family word == 0xC

theorem drawsRandom_of_word? (hword : m.memory.word? m.pc = some word) :
    m.drawsRandom = (Opcode.family word == 0xC) := by
  rw [drawsRandom, hword]
  rfl

/-!
## One cycle
-/

theorem cycle_of_random (hword : m.memory.word? m.pc = some word)
    (hfamily : Opcode.family word = 0xC) :
    m.cycle =
      .ok .executed (m.executed word (.random (Opcode.x word) (Opcode.byte word))) := by
  have hspelled : (Instruction.random (Opcode.x word) (Opcode.byte word)).SpelledBy word :=
    ⟨hfamily, rfl, rfl⟩
  rw [cycle_of_known hword (Instruction.ofWord?_of_spelledBy hspelled)]
  rfl

theorem generator_cycled_of_ne (hword : m.memory.word? m.pc = some word)
    (hfamily : Opcode.family word ≠ 0xC) : m.cycled.generator = m.generator := by
  cases cycle_cases m with
  | outside _ hcycle | unknown _ _ _ hcycle =>
      rw [cycled_of_ok hcycle]
      rfl
  | failed _ _ _ _ _ _ hcycle =>
      rw [cycled_of_error hcycle]
      rfl
  | executed fetched instruction hfetched hspelled _ hcycle =>
      rw [hword] at hfetched
      cases hfetched
      rw [cycled_of_ok hcycle]
      refine Instruction.generator_effect_of_ne (m := m.fetched word) ?_
      rintro x mask rfl
      exact hfamily hspelled.1

theorem generator_cycled (m : Machine) :
    m.cycled.generator = if m.drawsRandom = true then m.generator.next.2 else m.generator := by
  cases hword : m.memory.word? m.pc with
  | none =>
      rw [drawsRandom, hword, cycled_of_ok (cycle_of_outside hword)]
      rfl
  | some word =>
      rw [drawsRandom_of_word? hword]
      split
      · rename_i hfamily
        rw [cycled_of_ok (cycle_of_random hword (beq_iff_eq.mp hfamily))]
        rfl
      · rename_i hother
        exact generator_cycled_of_ne hword fun hfamily => hother (beq_iff_eq.mpr hfamily)

theorem register_of_random (hword : m.memory.word? m.pc = some word)
    (hfamily : Opcode.family word = 0xC) :
    exists after, m.cycle = .ok .executed after ∧
      after.registers.get (Opcode.x word) = m.generator.next.1 &&& Opcode.byte word := by
  refine ⟨_, cycle_of_random hword hfamily, ?_⟩
  show (Cells.put m.registers (Opcode.x word) _).get (Opcode.x word) = _
  rw [Cells.get_put, if_pos rfl]
  rfl

end Machine

/-!
## Operations
-/

namespace Operation

/-- The random byte that an operation draws, if it draws one: the host's own is what it is
given back, and that of a cycle the next one of the generator. -/
def byte? (operation : Operation) (m : Machine) : Option UInt8 :=
  match operation with
  | .random =>
      match operation.run m with
      | .ok (.byte value) _ => some value
      | _ => none
  | .cycle _ => if m.drawsRandom then some m.generator.next.1 else none
  | _ => none

theorem generator_after {operation : Operation} (hreset : operation ≠ reset) (m : Machine) :
    (operation.byte? m = some m.generator.next.1 ∧
      (operation.after m).generator = m.generator.next.2) ∨
    (operation.byte? m = none ∧ (operation.after m).generator = m.generator) := by
  cases operation with
  | reset => exact absurd rfl hreset
  | load program =>
      refine Or.inr ⟨rfl, ?_⟩
      rw [after_load]
      split <;> rfl
  | loadFile content =>
      refine Or.inr ⟨rfl, ?_⟩
      rw [after_loadFile]
      split
      · rw [after_load]
        split <;> rfl
      · rfl
  | press key down =>
      refine Or.inr ⟨rfl, ?_⟩
      rw [after_press]
      split <;> rfl
  | countDown => exact Or.inr ⟨rfl, rfl⟩
  | random => exact Or.inl ⟨rfl, rfl⟩
  | cycle outbox =>
      have hcycled := Machine.generator_cycled { m with outbox }
      rw [after_cycle]
      cases hdraws : m.drawsRandom with
      | true =>
          refine Or.inl ⟨?_, ?_⟩
          · rw [byte?, hdraws, if_pos rfl]
          · exact hcycled.trans (if_pos hdraws)
      | false =>
          refine Or.inr ⟨?_, ?_⟩
          · rw [byte?, hdraws, if_neg Bool.false_ne_true]
          · exact hcycled.trans (if_neg (by rw [Bool.not_eq_true]; exact hdraws))

end Operation

structure Ledger where
  machine : Machine
  bytes : List UInt8

namespace Ledger

open Machine

def opened : Ledger where
  machine := powerOn
  bytes := []

def record (ledger : Ledger) (operation : Operation) : Ledger where
  machine := operation.after ledger.machine
  bytes :=
    match operation with
    | .reset => []
    | operation => ledger.bytes ++ (operation.byte? ledger.machine).toList

def recordAll (operations : List Operation) : Ledger :=
  operations.foldl record opened

structure InStep (ledger : Ledger) : Prop where
  generator : ledger.machine.generator = (Random.Generator.ofSeed seed).behind ledger.bytes.length
  bytes : ledger.bytes = (List.range ledger.bytes.length).map seedByte

theorem inStep_opened : opened.InStep where
  generator := rfl
  bytes := rfl

theorem record_of_ne {operation : Operation} (hreset : operation ≠ .reset) (ledger : Ledger) :
    ledger.record operation =
      { machine := operation.after ledger.machine
        bytes := ledger.bytes ++ (operation.byte? ledger.machine).toList } := by
  cases operation with
  | reset => exact absurd rfl hreset
  | _ => rfl

theorem InStep.record_of_ne {ledger : Ledger} {operation : Operation} (h : ledger.InStep)
    (hreset : operation ≠ .reset) : (ledger.record operation).InStep := by
  rw [Ledger.record_of_ne hreset]
  rcases Operation.generator_after hreset ledger.machine with
    ⟨hbyte, hgenerator⟩ | ⟨hbyte, hgenerator⟩
  · have hnext : ledger.machine.generator.next.1 = seedByte ledger.bytes.length := by
      rw [h.generator]
      rfl
    rw [hbyte]
    constructor
    · show _ = Random.Generator.behind _ (ledger.bytes ++ [_]).length
      rw [hgenerator, List.length_append, List.length_singleton, Random.Generator.behind_succ,
        ← h.generator]
    · show ledger.bytes ++ [_] = (List.range (ledger.bytes ++ [_]).length).map seedByte
      rw [List.length_append, List.length_singleton, List.range_succ, List.map_append,
        ← h.bytes, hnext]
      rfl
  · rw [hbyte]
    constructor
    · show _ = Random.Generator.behind _ (ledger.bytes ++ []).length
      rw [hgenerator, List.append_nil]
      exact h.generator
    · show ledger.bytes ++ [] = (List.range (ledger.bytes ++ []).length).map seedByte
      rw [List.append_nil]
      exact h.bytes

theorem InStep.record {ledger : Ledger} (h : ledger.InStep) (operation : Operation) :
    (ledger.record operation).InStep := by
  cases operation with
  | reset => exact ⟨inStep_opened.generator, inStep_opened.bytes⟩
  | _ => exact h.record_of_ne fun heq => by cases heq

theorem inStep_foldl (operations : List Operation) {ledger : Ledger} (h : ledger.InStep) :
    (operations.foldl Ledger.record ledger).InStep := by
  induction operations generalizing ledger with
  | nil => exact h
  | cons operation rest ih => exact ih (h.record operation)

theorem machine_foldl (operations : List Operation) (ledger : Ledger) :
    (operations.foldl Ledger.record ledger).machine =
      Operation.afterAll operations ledger.machine := by
  induction operations generalizing ledger with
  | nil => rfl
  | cons operation rest ih => exact ih (ledger.record operation)

/-- A cycle draws one byte if it fetches a word of family C, and leaves it in the register
of the word, masked; any other cycle leaves the generator alone. Whatever is done to a
machine from power-on, the bytes drawn since its last reset, for the program or the host,
are the first ones of the seed, in their order. -/
theorem random_bytes_follow_seed :
    (forall m : Machine, m.cycled.generator =
      if m.drawsRandom = true then m.generator.next.2 else m.generator) ∧
    (forall (m : Machine) (word : UInt16), m.memory.word? m.pc = some word ->
      Opcode.family word = 0xC -> exists after, m.cycle = .ok .executed after ∧
        after.registers.get (Opcode.x word) = m.generator.next.1 &&& Opcode.byte word) ∧
    (forall operations,
      (recordAll operations).machine = Operation.afterAll operations powerOn ∧
      (recordAll operations).InStep) := by
  refine ⟨generator_cycled, fun m word hword hfamily => register_of_random hword hfamily, ?_⟩
  intro operations
  exact ⟨machine_foldl operations opened, inStep_foldl operations inStep_opened⟩

example : (recordAll [.random, .reset, .random, .random]).bytes = [204, 186] := by
  decide +kernel

/-- The host draws a byte between loading a program and resetting, loads one that draws two
bytes, draws one itself, and runs a cycle with a full outbox. -/
def sharedDraws : List Operation :=
  [.load [0x00, 0xE0], .random, .reset, .load [0xC3, 0x0F, 0xC4, 0x3C], .random,
    .press 5 true, .cycle ⟨[.awaitKey, .clearDisplay], by decide⟩]

theorem sharedDraws_follow_seed :
    (recordAll sharedDraws).bytes = [seedByte 0, seedByte 1] ∧
    exists after, (Operation.afterAll sharedDraws powerOn).cycle = .ok .executed after ∧
      after.registers.get 4 = seedByte 2 &&& 0x3C := by
  have hcount : (recordAll sharedDraws).bytes.length = 2 := by decide +kernel
  rcases random_bytes_follow_seed.2.2 sharedDraws with ⟨hmachine, hstep⟩
  constructor
  · rw [hstep.bytes, hcount]
    rfl
  · have hword : (Operation.afterAll sharedDraws powerOn).memory.word?
        (Operation.afterAll sharedDraws powerOn).pc = some 0xC43C := by decide +kernel
    have hnext : (Operation.afterAll sharedDraws powerOn).generator.next.1 = seedByte 2 := by
      rw [← hmachine, hstep.generator, hcount]
      rfl
    rw [← hnext]
    exact random_bytes_follow_seed.2.1 _ 0xC43C hword (by decide)

end Ledger

end Chip8
