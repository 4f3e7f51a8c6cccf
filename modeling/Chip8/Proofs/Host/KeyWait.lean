import Chip8.Proofs.Cycle.Standstill
import Chip8.Proofs.Registers.Reading
import Mathlib.Data.List.Sort

/-!
# Waiting for a key

A machine that waits for a key stays as it is, but for the timers, until its host presses
one. Then it goes on in the next cycle and takes the lowest of the keys that are down, in
whatever order they were pressed.
-/

namespace Chip8

namespace Keypad

variable {keys : Keypad} {pressed : List (Fin 16)} {key : Fin 16}

def withDown (keys : Keypad) (pressed : List (Fin 16)) : Keypad :=
  pressed.foldl (fun keys key => Cells.put keys key true) keys

theorem get_withDown_iff :
    (keys.withDown pressed).get key = true ↔ key ∈ pressed ∨ keys.get key = true := by
  induction pressed generalizing keys with
  | nil => simp [withDown]
  | cons first rest ih =>
      have hrest : (keys.withDown (first :: rest)).get key = true ↔
          key ∈ rest ∨ (Cells.put keys first true).get key = true := ih
      rw [hrest, Cells.get_put, List.mem_cons]
      by_cases hfirst : first = key
      · simp [hfirst]
      · simp [hfirst, Ne.symm hfirst]

theorem isLeast_of_lowestDown? (h : keys.lowestDown? = some key) :
    IsLeast {other | keys.get other = true} key := by
  have hleast := isLeast_of_find? (List.sortedLT_finRange 16).pairwise h
  simp only [List.mem_finRange, true_and] at hleast
  exact hleast

theorem exists_lowestDown? (h : keys.get key = true) :
    exists lowest, keys.lowestDown? = some lowest := by
  cases hlowest : keys.lowestDown? with
  | some lowest => exact ⟨lowest, rfl⟩
  | none =>
      rw [lowestDown?_eq_none_iff.mp hlowest] at h
      cases h

end Keypad

namespace Machine

variable {m : Machine} {word : UInt16}

def pressAll (pressed : List (Fin 16)) : MachineM Unit :=
  forM pressed fun key => press key.val true

/-- The machine `after` is `m` behind a wait and the cycle that ended it, `n` cycles in all:
of the pressed keys the lowest is in the register that the word names, and the next word
follows. Nothing else has changed, apart from the keys themselves, the timers and what every
cycle makes anew. -/
structure Resumed (m after : Machine) (word : UInt16) (n : Nat) (pressed : List (Fin 16)) :
    Prop where
  lowest : exists key, IsLeast {key | key ∈ pressed} key ∧
    (after.registers.get (Opcode.x word)).toNat = key.val
  registers : forall z, z ≠ Opcode.x word -> after.registers.get z = m.registers.get z
  pc : after.pc.toNat = m.pc.toNat + 2
  keys : forall key, after.keys.get key = true ↔ key ∈ pressed
  requests : after.outbox.requests = []
  rest : after =
    { m.agedBy n with
      registers := after.registers, pc := after.pc, keys := after.keys,
      drawn := false, opcode := word, outbox := Outbox.empty }

/-!
## Pressing keys
-/

theorem press_eq (key : Fin 16) (down : Bool) (m : Machine) :
    press key.val down m = .ok () { m with keys := Cells.put m.keys key down } := by
  have hset : m.keys.setDown key.val down = .ok (Cells.put m.keys key down) :=
    dif_pos key.isLt
  simp only [press, Failure.bind_apply, Failure.get_apply, hset, Failure.attempt_ok]
  rfl

theorem pressAll_eq (pressed : List (Fin 16)) (m : Machine) :
    pressAll pressed m = .ok () { m with keys := m.keys.withDown pressed } := by
  induction pressed generalizing m with
  | nil => rfl
  | cons first rest ih =>
      unfold pressAll
      rw [List.forM_cons, Failure.bind_of_ok (press_eq first true m)]
      exact ih { m with keys := Cells.put m.keys first true }

/-!
## The cycle that ends a wait
-/

theorem cycle_of_lowestDown? {key : Fin 16} (hword : m.memory.word? m.pc = some word)
    (hkind : Opcode.IsDevice 0x0A word) (hkey : m.keys.lowestDown? = some key) :
    m.cycle = .ok .executed
      (aged
        { m.fetched word with
          registers := m.registers.put (Opcode.x word) (UInt8.ofNat key.val)
          pc := m.pc + 2 }) := by
  have hspelled : (Instruction.awaitKey (Opcode.x word)).SpelledBy word :=
    ⟨hkind.1, hkind.2, rfl⟩
  have hfetched : (m.fetched word).keys.lowestDown? = some key := hkey
  rw [cycle_of_known hword (Instruction.ofWord?_of_spelledBy hspelled)]
  simp only [Instruction.failure?, Failure.guarded, executed, Instruction.effect,
    Instruction.target, hfetched, hkey]
  rfl

theorem cycle_held_of_pressed {outbox : Outbox} {keys : Keypad} {key : Fin 16}
    (hword : m.memory.word? m.pc = some word) (hkind : Opcode.IsDevice 0x0A word)
    (hkey : keys.lowestDown? = some key) (n : Nat) :
    cycle { m.held word outbox n with keys } =
      .ok .executed
        { m.held word Outbox.empty (n + 1) with
          registers := m.registers.put (Opcode.x word) (UInt8.ofNat key.val)
          pc := m.pc + 2
          keys } := by
  rw [← aged_fetched_held m word outbox Outbox.empty n]
  -- A machine that has not waited yet is taken as it is, with its old flag and requests.
  cases n with
  | zero => exact cycle_of_lowestDown? (m := { m with keys }) hword hkind hkey
  | succ n =>
      exact cycle_of_lowestDown? (m := { m.held word outbox (n + 1) with keys }) hword hkind hkey

theorem resumed_of_pressed {pressed : List (Fin 16)} {key : Fin 16}
    (hword : m.memory.word? m.pc = some word) (hkeys : forall key, m.keys.get key = false)
    (hkey : (m.keys.withDown pressed).lowestDown? = some key) (n : Nat) :
    m.Resumed
      { m.held word Outbox.empty (n + 1) with
        registers := m.registers.put (Opcode.x word) (UInt8.ofNat key.val)
        pc := m.pc + 2
        keys := m.keys.withDown pressed } word (n + 1) pressed where
  lowest := by
    have hdown : {key | (m.keys.withDown pressed).get key = true} = {key | key ∈ pressed} := by
      ext other
      simp [Keypad.get_withDown_iff, hkeys]
    refine ⟨key, hdown ▸ Keypad.isLeast_of_lowestDown? hkey, ?_⟩
    rw [Registers.get_put_self]
    exact UInt8.toNat_ofNat_of_lt' (Nat.lt_trans key.isLt (by decide))
  registers _ hz := Registers.get_put_of_ne hz
  pc := toNat_next (Memory.address_le_of_word? hword)
  keys key := by
    rw [Keypad.get_withDown_iff, hkeys]
    simp
  requests := rfl
  rest := rfl

/-- While no key is down, a word that asks for one holds the machine: every cycle is executed,
asks the host for a key and changes nothing but the timers, the drawing flag and the noted
word. However long that was and whatever keys the host then presses, in any order, the next
cycle takes the lowest of them and goes on. -/
theorem waits_until_keys_are_pressed (hword : m.memory.word? m.pc = some word)
    (hkind : Opcode.IsDevice 0x0A word) (hkeys : forall key, m.keys.get key = false) :
    (forall n,
      (m.afterCycles n).cycle = .ok .executed (m.afterCycles (n + 1)) ∧
      (m.afterCycles (n + 1)).outbox.requests = [.awaitKey] ∧
      m.afterCycles (n + 1) =
        { m.agedBy (n + 1) with
          drawn := false, opcode := word, outbox := Outbox.single .awaitKey }) ∧
    (forall n pressed, pressed ≠ [] ->
      exists ready after,
        pressAll pressed (m.afterCycles n) = .ok () ready ∧
        ready.cycle = .ok .executed after ∧
        m.Resumed after word (n + 1) pressed) := by
  have hwaits : m.Waits word :=
    ⟨hkind.1, hkind.2, Keypad.lowestDown?_eq_none_iff.mpr hkeys⟩
  have hholds := holds_of_waits hword hwaits
  have hafter := afterCycles_of_holds hholds
  constructor
  · intro n
    rw [hafter n, hafter (n + 1)]
    exact ⟨hholds n, rfl, rfl⟩
  · intro n pressed hpressed
    rcases List.exists_mem_of_ne_nil pressed hpressed with ⟨first, hfirst⟩
    have hdown : (m.keys.withDown pressed).get first = true :=
      Keypad.get_withDown_iff.mpr (Or.inl hfirst)
    rcases Keypad.exists_lowestDown? hdown with ⟨key, hkey⟩
    have hready := pressAll_eq pressed (m.held word (Outbox.single .awaitKey) n)
    rw [keys_held] at hready
    rw [hafter n]
    exact ⟨_, _, hready, cycle_held_of_pressed hword hkind hkey n,
      resumed_of_pressed hword hkeys hkey n⟩

def waitingLong : Machine :=
  { loaded [0xF4, 0x0A] with
    delayTimer := 3
    soundTimer := 200
    drawn := true
    outbox := Outbox.single .clearDisplay }

theorem waitingLong_takes_lowest :
    (waitingLong.afterCycles 100).delayTimer = 0 ∧
    (waitingLong.afterCycles 100).soundTimer = 100 ∧
    exists ready after,
      pressAll [12, 5, 9, 12] (waitingLong.afterCycles 100) = .ok () ready ∧
      ready.cycle = .ok .executed after ∧
      waitingLong.Resumed after 0xF40A 101 [12, 5, 9, 12] := by
  have hfit : [(0xF4 : UInt8), 0x0A].length ≤ 3584 := by decide
  have hplace : waitingLong.pc.toNat = 512 + 0 := rfl
  have hhigh : [(0xF4 : UInt8), 0x0A][0]? = some 0xF4 := rfl
  have hlow : [(0xF4 : UInt8), 0x0A][0 + 1]? = some 0x0A := rfl
  have hword : waitingLong.memory.word? waitingLong.pc = some 0xF40A :=
    word?_loaded hfit hplace hhigh hlow
  have hkind : Opcode.IsDevice 0x0A 0xF40A := ⟨by decide, by decide⟩
  have hkeys : forall key, waitingLong.keys.get key = false := by decide +kernel
  have hlaws := waits_until_keys_are_pressed hword hkind hkeys
  have hlong := (hlaws.1 99).2.2
  refine ⟨?_, ?_, hlaws.2 100 [12, 5, 9, 12] (List.cons_ne_nil _ _)⟩
  · rw [hlong]
    rfl
  · rw [hlong]
    rfl

end Machine

end Chip8
