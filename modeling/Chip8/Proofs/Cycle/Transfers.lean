import Chip8.Proofs.Cycle.WriteSets
import Chip8.Proofs.Host.Loading
import Chip8.Proofs.Instruction.Failures

/-!
# Transfers between registers and memory

Registers are stored from the index on, and loaded from there. Neither moves the index, so
what one machine stores a later one loads again, if nothing wrote over it in between, and as
many of the registers as it wants. The digits of a register are stored in the same way.
-/

namespace Chip8

namespace Machine

variable {m stored later : Machine} {word : UInt16} {content : List UInt8}

structure StoresAtIndex (m after : Machine) (content : List UInt8) : Prop where
  index : after.index = m.index
  registers : after.registers = m.registers
  inside : forall k, k < content.length ->
    after.memory[m.index.toNat + k]? = content[k]?
  outside : forall (address : Nat) (h : address < 4096),
    address < m.index.toNat ∨ m.index.toNat + content.length ≤ address ->
    after.memory[address] = m.memory[address]

/-- The machine `after` is `m` with registers loaded, at most those up to the last. The
registers above, the index and memory are as before. -/
structure LoadsUpTo (m after : Machine) (last : Register) : Prop where
  above : forall z, last < z -> after.registers.get z = m.registers.get z
  index : after.index = m.index
  memory : after.memory = m.memory

structure SameAtIndex (m other : Machine) (len : Nat) : Prop where
  index : other.index = m.index
  bytes : forall k, k < len ->
    other.memory[m.index.toNat + k]? = m.memory[m.index.toNat + k]?

/-!
## Storing
-/

theorem storesAtIndex_of_write (hfit : m.index.toNat + content.length ≤ 4096)
    (hindex : stored.index = m.index) (hregisters : stored.registers = m.registers)
    (hmemory : stored.memory = m.memory.write m.index.toNat content) :
    m.StoresAtIndex stored content where
  index := hindex
  registers := hregisters
  inside k hk := by
    have hplace : m.index.toNat + k < 4096 := by lia
    have hbyte : content[m.index.toNat + k - m.index.toNat]? = some content[k] := by
      rw [Nat.add_sub_cancel_left]
      exact List.getElem?_eq_getElem hk
    rw [hmemory, Vector.getElem?_eq_getElem hplace, List.getElem?_eq_getElem hk,
      Bytes.getElem_write_of_inside hplace (Nat.le_add_right _ k) hbyte]
  outside address h houtside := by
    simp only [hmemory]
    exact Bytes.getElem_write_of_outside h houtside

theorem cycle_of_span {instruction : Instruction} {len : Nat}
    (hword : m.memory.word? m.pc = some word) (hspelled : instruction.SpelledBy word)
    (hspan : instruction.failure? m = m.spanFailure? len)
    (hfit : m.index.toNat + len ≤ 4096) :
    m.cycle = .ok .executed (m.executed word instruction) := by
  rw [cycle_of_known hword (Instruction.ofWord?_of_spelledBy hspelled), hspan,
    spanFailure?_of_fit hfit]
  rfl

theorem exists_stores_registers (hword : m.memory.word? m.pc = some word)
    (hkind : Opcode.IsDevice 0x55 word)
    (hfit : m.index.toNat + (Opcode.x word).val ≤ 4095) :
    exists stored, m.cycle = .ok .executed stored ∧
      m.StoresAtIndex stored (m.registers.toList.take ((Opcode.x word).val + 1)) := by
  have hspelled : (Instruction.storeRegisters (Opcode.x word)).SpelledBy word :=
    ⟨hkind.1, hkind.2, rfl⟩
  have hlength := length_firstRegisters m.registers (Opcode.x word)
  exact ⟨_, cycle_of_span hword hspelled rfl (Nat.succ_le_succ hfit),
    storesAtIndex_of_write (by rw [hlength]; exact Nat.succ_le_succ hfit) rfl rfl rfl⟩

theorem exists_stores_digits (hword : m.memory.word? m.pc = some word)
    (hkind : Opcode.IsDevice 0x33 word) (hfit : m.index.toNat + 2 ≤ 4095) :
    exists stored, m.cycle = .ok .executed stored ∧
      m.StoresAtIndex stored (decimalDigits (m.registers.get (Opcode.x word))) := by
  have hspelled : (Instruction.storeDecimal (Opcode.x word)).SpelledBy word :=
    ⟨hkind.1, hkind.2, rfl⟩
  exact ⟨_, cycle_of_span hword hspelled rfl (Nat.succ_le_succ hfit),
    storesAtIndex_of_write (Nat.succ_le_succ hfit) rfl rfl rfl⟩

theorem decimalDigits_spec (byte : UInt8) :
    exists hundreds tens ones : UInt8,
      decimalDigits byte = [hundreds, tens, ones] ∧
      hundreds.toNat ≤ 9 ∧ tens.toNat ≤ 9 ∧ ones.toNat ≤ 9 ∧
      100 * hundreds.toNat + 10 * tens.toNat + ones.toNat = byte.toNat := by
  have hbyte := byte.toNat_lt
  refine ⟨_, _, _, rfl, ?_⟩
  simp only [UInt8.toNat_div, UInt8.toNat_mod, UInt8.toNat_ofNat]
  lia

theorem StoresAtIndex.word?_eq {address : UInt16} (hstores : m.StoresAtIndex stored content)
    (houtside : address.toNat + 1 < m.index.toNat ∨
      m.index.toNat + content.length ≤ address.toNat) :
    stored.memory.word? address = m.memory.word? address := by
  unfold Memory.word?
  split
  · rename_i hlast
    rw [hstores.outside address.toNat (by lia) (by lia),
      hstores.outside (address.toNat + 1) hlast (by lia)]
  · rfl

/-!
## Loading
-/

theorem exists_loads_content (hword : later.memory.word? later.pc = some word)
    (hkind : Opcode.IsDevice 0x65 word) (hlast : (Opcode.x word).val < content.length)
    (hcontent : forall k, k < content.length ->
      later.memory[later.index.toNat + k]? = content[k]?) :
    exists loaded, later.cycle = .ok .executed loaded ∧
      later.LoadsUpTo loaded (Opcode.x word) ∧
      forall z, z ≤ Opcode.x word -> content[z.val]? = some (loaded.registers.get z) := by
  have hspelled : (Instruction.loadRegisters (Opcode.x word)).SpelledBy word :=
    ⟨hkind.1, hkind.2, rfl⟩
  -- The check on the span passes because the last of its bytes was read.
  have hinside : later.index.toNat + (Opcode.x word).val < 4096 := by
    have hread := hcontent _ hlast
    rw [List.getElem?_eq_getElem hlast] at hread
    exact (Vector.getElem?_eq_some_iff.mp hread).1
  have hslice : later.memory.slice? later.index.toNat ((Opcode.x word).val + 1) =
      some (later.bytesAtIndex ((Opcode.x word).val + 1)) := slice?_bytesAtIndex hinside
  refine ⟨_, cycle_of_span hword hspelled rfl hinside, ⟨fun z hz => ?_, rfl, rfl⟩, ?_⟩
  · exact Registers.get_write_of_le
      (Nat.le_trans (length_bytesAtIndex_le later _) (Nat.succ_le_of_lt hz))
  · intro z hz
    have hlt : z.val < content.length := Nat.lt_of_le_of_lt hz hlast
    have hread : (later.bytesAtIndex ((Opcode.x word).val + 1))[z.val]? = content[z.val]? := by
      rw [Bytes.getElem?_of_slice? hslice z.val (Nat.lt_succ_of_le hz), hcontent _ hlt]
    rw [List.getElem?_eq_getElem hlt] at hread ⊢
    exact congrArg some
      (Bytes.getElem_write_of_inside z.isLt (Nat.zero_le _) hread).symm

theorem StoresAtIndex.exists_loads (hstores : m.StoresAtIndex stored content)
    (hsame : stored.SameAtIndex later content.length)
    (hword : later.memory.word? later.pc = some word) (hkind : Opcode.IsDevice 0x65 word)
    (hlast : (Opcode.x word).val < content.length) :
    exists loaded, later.cycle = .ok .executed loaded ∧
      later.LoadsUpTo loaded (Opcode.x word) ∧
      forall z, z ≤ Opcode.x word -> content[z.val]? = some (loaded.registers.get z) := by
  refine exists_loads_content hword hkind hlast fun k hk => ?_
  have hread := hsame.bytes k hk
  rw [hstores.index] at hread
  rw [hsame.index, hstores.index, hread, hstores.inside k hk]

theorem StoresAtIndex.exists_loads_registers {x : Register}
    (hstores : m.StoresAtIndex stored (m.registers.toList.take (x.val + 1)))
    (hsame : stored.SameAtIndex later (x.val + 1))
    (hword : later.memory.word? later.pc = some word) (hkind : Opcode.IsDevice 0x65 word)
    (hlast : Opcode.x word ≤ x) :
    exists loaded, later.cycle = .ok .executed loaded ∧
      later.LoadsUpTo loaded (Opcode.x word) ∧
      forall z, z ≤ Opcode.x word -> loaded.registers.get z = m.registers.get z := by
  have hlength := length_firstRegisters m.registers x
  have hreach : (Opcode.x word).val < (m.registers.toList.take (x.val + 1)).length := by
    rw [hlength]
    exact Nat.lt_succ_of_le hlast
  rw [← hlength] at hsame
  rcases hstores.exists_loads hsame hword hkind hreach with ⟨loaded, hcycle, hloads, hvalues⟩
  refine ⟨loaded, hcycle, hloads, fun z hz => ?_⟩
  have hvalue := hvalues z hz
  rw [Registers.getElem?_take (Fin.le_trans hz hlast)] at hvalue
  exact (Option.some.inj hvalue).symm

theorem StoresAtIndex.exists_loads_three {first second third : UInt8}
    (hstores : m.StoresAtIndex stored [first, second, third])
    (hsame : stored.SameAtIndex later 3)
    (hword : later.memory.word? later.pc = some word) (hkind : Opcode.IsDevice 0x65 word)
    (hlast : Opcode.x word = 2) :
    exists loaded, later.cycle = .ok .executed loaded ∧ later.LoadsUpTo loaded 2 ∧
      loaded.registers.get 0 = first ∧ loaded.registers.get 1 = second ∧
      loaded.registers.get 2 = third := by
  have hreach : (Opcode.x word).val < [first, second, third].length := by
    rw [hlast]
    exact Nat.lt_succ_self 2
  rcases hstores.exists_loads hsame hword hkind hreach with ⟨loaded, hcycle, hloads, hvalues⟩
  rw [hlast] at hloads hvalues
  have hfirst := hvalues 0 (by decide)
  have hsecond := hvalues 1 (by decide)
  have hthird := hvalues 2 (by decide)
  exact ⟨loaded, hcycle, hloads, (Option.some.inj hfirst).symm,
    (Option.some.inj hsecond).symm, (Option.some.inj hthird).symm⟩

/-- Storing registers changes nothing but the memory they go to, and a later machine with the
same index and the same bytes there loads as many of them as it asks for. Storing the digits
of a register changes nothing but three bytes, which are decimal digits and make up its value,
and a later machine loads them into the first three registers. -/
theorem transfers_round_trip (hword : m.memory.word? m.pc = some word) :
    (Opcode.IsDevice 0x55 word -> m.index.toNat + (Opcode.x word).val ≤ 4095 ->
      exists stored, m.cycle = .ok .executed stored ∧
        m.StoresAtIndex stored (m.registers.toList.take ((Opcode.x word).val + 1)) ∧
        forall (later : Machine) (laterWord : UInt16),
          later.memory.word? later.pc = some laterWord -> Opcode.IsDevice 0x65 laterWord ->
          Opcode.x laterWord ≤ Opcode.x word ->
          stored.SameAtIndex later ((Opcode.x word).val + 1) ->
          exists loaded, later.cycle = .ok .executed loaded ∧
            later.LoadsUpTo loaded (Opcode.x laterWord) ∧
            forall z, z ≤ Opcode.x laterWord ->
              loaded.registers.get z = m.registers.get z) ∧
    (Opcode.IsDevice 0x33 word -> m.index.toNat + 2 ≤ 4095 ->
      exists (stored : Machine) (hundreds tens ones : UInt8),
        m.cycle = .ok .executed stored ∧
        m.StoresAtIndex stored [hundreds, tens, ones] ∧
        hundreds.toNat ≤ 9 ∧ tens.toNat ≤ 9 ∧ ones.toNat ≤ 9 ∧
        100 * hundreds.toNat + 10 * tens.toNat + ones.toNat =
          (m.registers.get (Opcode.x word)).toNat ∧
        forall (later : Machine) (laterWord : UInt16),
          later.memory.word? later.pc = some laterWord -> Opcode.IsDevice 0x65 laterWord ->
          Opcode.x laterWord = 2 -> stored.SameAtIndex later 3 ->
          exists loaded, later.cycle = .ok .executed loaded ∧
            later.LoadsUpTo loaded 2 ∧
            loaded.registers.get 0 = hundreds ∧ loaded.registers.get 1 = tens ∧
            loaded.registers.get 2 = ones) := by
  constructor
  · intro hkind hfit
    rcases exists_stores_registers hword hkind hfit with ⟨stored, hcycle, hstores⟩
    refine ⟨stored, hcycle, hstores, ?_⟩
    intro later laterWord hlater hload hlast hsame
    exact hstores.exists_loads_registers hsame hlater hload hlast
  · intro hkind hfit
    rcases exists_stores_digits hword hkind hfit with ⟨stored, hcycle, hstores⟩
    rcases decimalDigits_spec (m.registers.get (Opcode.x word)) with
      ⟨hundreds, tens, ones, hdigits, hhundreds, htens, hones, hsum⟩
    rw [hdigits] at hstores
    refine ⟨stored, hundreds, tens, ones, hcycle, hstores, hhundreds, htens, hones, hsum, ?_⟩
    intro later laterWord hlater hload hlast hsame
    exact hstores.exists_loads_three hsame hlater hload hlast

/-- A program that stores four registers in the last bytes of memory and loads two of them,
and then stores the digits of the last one in their place and loads these. -/
def saving : Machine :=
  { loaded [0xF3, 0x55, 0xF1, 0x65, 0xF3, 0x33, 0xF2, 0x65] with
    index := 4092
    registers := #v[11, 22, 33, 207, 0, 0, 0, 0, 0, 0, 0, 0, 0, 0, 0, 0] }

theorem saving_round_trips :
    (exists stored loaded, saving.cycle = .ok .executed stored ∧
      cycle { stored with pc := 514, registers := Bytes.zeros 16 } = .ok .executed loaded ∧
      loaded.registers.get 0 = 11 ∧ loaded.registers.get 1 = 22 ∧
      loaded.registers.get 2 = 0) ∧
    (exists stored loaded, cycle { saving with pc := 516 } = .ok .executed stored ∧
      cycle { stored with pc := 518 } = .ok .executed loaded ∧
      loaded.registers.get 0 = 2 ∧ loaded.registers.get 1 = 0 ∧
      loaded.registers.get 2 = 7) := by
  have hfit : [(0xF3 : UInt8), 0x55, 0xF1, 0x65, 0xF3, 0x33, 0xF2, 0x65].length ≤ 3584 := by
    decide
  constructor
  · have hword : saving.memory.word? saving.pc = some 0xF355 :=
      word?_loaded (k := 0) hfit rfl rfl rfl
    have hnext : saving.memory.word? 514 = some 0xF165 :=
      word?_loaded (k := 2) hfit rfl rfl rfl
    rcases (transfers_round_trip hword).1 ⟨by decide, by decide⟩ (by decide) with
      ⟨stored, hcycle, hstores, hlaw⟩
    have hlater : stored.memory.word? 514 = some 0xF165 :=
      (hstores.word?_eq (Or.inl (by decide))).trans hnext
    rcases hlaw { stored with pc := 514, registers := Bytes.zeros 16 } 0xF165 hlater
        ⟨by decide, by decide⟩ (by decide) ⟨rfl, fun _ _ => rfl⟩ with
      ⟨loaded, hloading, hloads, hvalues⟩
    exact ⟨stored, loaded, hcycle, hloading, hvalues 0 (by decide), hvalues 1 (by decide),
      hloads.above 2 (by decide)⟩
  · have hword : saving.memory.word? 516 = some 0xF333 :=
      word?_loaded (k := 4) hfit rfl rfl rfl
    have hnext : saving.memory.word? 518 = some 0xF265 :=
      word?_loaded (k := 6) hfit rfl rfl rfl
    have hvalue : (saving.registers.get (Opcode.x 0xF333)).toNat = 207 := by decide
    rcases (transfers_round_trip (m := { saving with pc := 516 }) hword).2
        ⟨by decide, by decide⟩ (by decide) with
      ⟨stored, hundreds, tens, ones, hcycle, hstores, hhundreds, htens, hones, hsum, hlaw⟩
    have hlater : stored.memory.word? 518 = some 0xF265 :=
      (hstores.word?_eq (Or.inl (by decide))).trans hnext
    rcases hlaw { stored with pc := 518 } 0xF265 hlater ⟨by decide, by decide⟩ (by decide)
        ⟨rfl, fun _ _ => rfl⟩ with ⟨loaded, hloading, _, hfirst, hsecond, hthird⟩
    have hdigits : 100 * hundreds.toNat + 10 * tens.toNat + ones.toNat = 207 :=
      hsum.trans hvalue
    have htwo : hundreds.toNat = 2 := by lia
    have hzero : tens.toNat = 0 := by lia
    have hseven : ones.toNat = 7 := by lia
    refine ⟨stored, loaded, hcycle, hloading, ?_, ?_, ?_⟩
    · exact hfirst.trans (UInt8.toNat_inj.mp htwo)
    · exact hsecond.trans (UInt8.toNat_inj.mp hzero)
    · exact hthird.trans (UInt8.toNat_inj.mp hseven)

end Machine

end Chip8
