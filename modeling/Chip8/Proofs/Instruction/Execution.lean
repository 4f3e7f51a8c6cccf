import Chip8.Proofs.Instruction.Meaning

/-!
# Execution follows the meaning

Executing an instruction fails with its failure and leaves the machine as it was, or
gives its target and leaves its effect. Each operation of the machine is brought into
this form first; the instructions follow one by one.
-/

namespace Chip8

namespace Failure

variable {σ α β : Type} {first : EStateM Failure σ α} {rest : α → EStateM Failure σ β}
variable {s after : σ}

theorem bind_of_ok {value : α} (h : first s = .ok value after) :
    (first >>= rest) s = rest value after := by
  rw [bind_apply, h]

theorem bind_of_error {failure : Failure} (h : first s = .error failure after) :
    (first >>= rest) s = .error failure after := by
  rw [bind_apply, h]

theorem bind_pure_of_guarded {failure? : Option Failure} {value : α} (f : α → β)
    (h : first s = guarded failure? s value after) :
    (first >>= fun a => pure (f a)) s = guarded failure? s (f value) after := by
  cases failure? with
  | none => exact bind_of_ok h
  | some failure => exact bind_of_error h

end Failure

namespace Word

variable {a b : UInt16}

theorem add?_of_lt (h : a.toNat + b.toNat < 65536) : add? a b = some (a + b) :=
  if_pos h

theorem mul?_of_lt (h : a.toNat * b.toNat < 65536) : mul? a b = some (a * b) :=
  if_pos h

end Word

theorem Address.toNat_toWord (address : Address) : address.toWord.toNat = address.val :=
  UInt16.toNat_ofNat_of_lt' (Nat.lt_trans address.isLt (by decide))

namespace Machine

variable {m : Machine}

/-!
## The program counter

A word inside memory leaves room for the addresses of the two words behind it.
-/

theorem pc_add_lt {step : Nat} (hpc : m.pc.toNat ≤ 4094) (hstep : step ≤ 4) :
    m.pc.toNat + step < 65536 := by
  lia

theorem next?_eq (hpc : m.pc.toNat ≤ 4094) : Word.add? m.pc 2 = some (m.pc + 2) :=
  Word.add?_of_lt (pc_add_lt hpc (Nat.le_add_left 2 2))

theorem skip?_eq (hpc : m.pc.toNat ≤ 4094) : Word.add? m.pc 4 = some (m.pc + 4) :=
  Word.add?_of_lt (pc_add_lt hpc (Nat.le_refl 4))

theorem request_of_empty (what : Request) (hempty : m.outbox = Outbox.empty) :
    request what m = .ok () { m with outbox := Outbox.single what } := by
  have hpush : m.outbox.push what = .ok (Outbox.single what) := by
    rw [hempty]
    rfl
  simp only [request, Failure.bind_apply, Failure.get_apply, hpush, Failure.attempt_ok]
  rfl

/-!
## Access from the index on
-/

theorem checkSpan_eq {start len : Nat} (hlen : len ≠ 0) :
    Memory.checkSpan start len =
      if 4096 < start + len then .error (.addressOutside (start + len - 1)) else .ok () := by
  split
  · rename_i hlong
    exact Memory.checkSpan_eq_error_iff.mpr ⟨hlen, hlong, rfl⟩
  · rename_i hfit
    exact Memory.checkSpan_eq_ok_iff.mpr (Or.inr (Nat.le_of_not_lt hfit))

theorem store_eq (content : List UInt8) (hcontent : content.length ≠ 0) :
    store content m =
      Failure.guarded (m.spanFailure? content.length) m ()
        { m with memory := m.memory.write m.index.toNat content } := by
  unfold spanFailure?
  by_cases hlong : 4096 < m.index.toNat + content.length
  · simp only [store, Failure.bind_apply, Failure.get_apply, checkSpan_eq hcontent, hlong,
      if_true, Failure.attempt_error, Failure.guarded]
  · have hwrite : m.memory.write? m.index.toNat content =
        some (m.memory.write m.index.toNat content) :=
      Bytes.write?_eq_some_iff.mpr ⟨Nat.le_of_not_lt hlong, rfl⟩
    simp only [store, Failure.bind_apply, Failure.get_apply, checkSpan_eq hcontent, hlong,
      if_false, Failure.attempt_ok, hwrite, Failure.orTrap_some, Failure.guarded]
    rfl

theorem storeDecimal_eq (x : Register) :
    storeDecimal x m =
      Failure.guarded (m.spanFailure? 3) m ()
        { m with
          memory := m.memory.write m.index.toNat (decimalDigits (m.registers.get x)) } :=
  store_eq (decimalDigits (m.registers.get x)) (Nat.succ_ne_zero 2)

theorem length_firstRegisters (registers : Registers) (x : Register) :
    (registers.toList.take (x.val + 1)).length = x.val + 1 := by
  rw [List.length_take, Vector.length_toList]
  exact Nat.min_eq_left x.isLt

theorem storeRegisters_eq (x : Register) :
    storeRegisters x m =
      Failure.guarded (m.spanFailure? (x.val + 1)) m ()
        { m with
          memory := m.memory.write m.index.toNat (m.registers.toList.take (x.val + 1)) } := by
  have hlength := length_firstRegisters m.registers x
  have hstore := store_eq (m := m) (m.registers.toList.take (x.val + 1))
    (by rw [hlength]; exact Nat.succ_ne_zero _)
  rw [hlength] at hstore
  exact hstore

theorem loadRegisters_eq (x : Register) :
    loadRegisters x m =
      Failure.guarded (m.spanFailure? (x.val + 1)) m ()
        { m with registers := m.registers.write 0 (m.bytesAtIndex (x.val + 1)) } := by
  have hlen : x.val + 1 ≠ 0 := Nat.succ_ne_zero _
  unfold spanFailure?
  by_cases hlong : 4096 < m.index.toNat + (x.val + 1)
  · simp only [loadRegisters, Failure.bind_apply, Failure.get_apply, checkSpan_eq hlen, hlong,
      if_true, Failure.attempt_error, Failure.guarded]
  · have hslice := slice?_bytesAtIndex (Nat.le_of_not_lt hlong)
    simp only [loadRegisters, Failure.bind_apply, Failure.get_apply, checkSpan_eq hlen, hlong,
      if_false, Failure.attempt_ok, hslice, Failure.orTrap_some, Failure.guarded]
    rfl

/-!
## Drawing
-/

theorem plot_eq (screen : Screen) (pixels : List Nat) :
    screen.plot pixels =
      match pixels.find? fun i => decide (Screen.size ≤ i) with
      | some i => .error (.pixelOutside i)
      | none => .ok (screen.flipAll pixels) :=
  rfl

theorem draw_of_fit {x y rows : Fin 16} (hfit : m.index.toNat + rows.val ≤ 4096) :
    draw x y rows m =
      Failure.guarded
        (((m.spritePixels x y rows).find? fun i => decide (Screen.size ≤ i)).map
          fun i => .error (.pixelOutside i)) m () (m.withSprite x y rows) := by
  have hcheck : Memory.checkSpan m.index.toNat rows.val = .ok () :=
    Memory.checkSpan_eq_ok_iff.mpr (Or.inr hfit)
  simp only [draw, Failure.bind_apply, Failure.get_apply, hcheck, Failure.attempt_ok,
    slice?_bytesAtIndex hfit, Failure.orTrap_some, plot_eq]
  rw [← spritePixels]
  cases (m.spritePixels x y rows).find? fun i => decide (Screen.size ≤ i) with
  | some i => rfl
  | none => rfl

theorem draw_eq (x y rows : Fin 16) :
    draw x y rows m =
      Failure.guarded (m.drawFailure? x y rows) m () (m.withSprite x y rows) := by
  unfold drawFailure? spanFailure?
  by_cases hrows : rows.val = 0
  · -- The check lets an empty span pass, the slice behind it does not.
    by_cases hbeyond : 4096 < m.index.toNat
    · have hslice : m.memory.slice? m.index.toNat 0 = none :=
        Bytes.slice?_eq_none_iff.mpr hbeyond
      have hcheck : Memory.checkSpan m.index.toNat 0 = .ok () := rfl
      simp only [draw, Failure.bind_apply, Failure.get_apply, hrows, hcheck, hslice, hbeyond,
        if_true, Failure.attempt_ok, Failure.orTrap_none, Failure.guarded]
    · rw [draw_of_fit (by rw [hrows]; exact Nat.le_of_not_lt hbeyond),
        spritePixels_zero hrows, if_pos hrows, if_neg hbeyond]
      rfl
  · rw [if_neg hrows]
    by_cases hlong : 4096 < m.index.toNat + rows.val
    · simp only [draw, Failure.bind_apply, Failure.get_apply, checkSpan_eq hrows, hlong,
        if_true, Failure.attempt_error, Failure.guarded]
    · rw [draw_of_fit (Nat.le_of_not_lt hlong), if_neg hlong]

/-!
## The other operations
-/

theorem clearScreen_of_empty (hempty : m.outbox = Outbox.empty) :
    clearScreen m = .ok () (Instruction.clearScreen.effect m) :=
  Failure.bind_of_ok (request_of_empty .clearDisplay hempty)

theorem drawRandom_eq (x : Register) (mask : UInt8) :
    drawRandom x mask m = .ok () ((Instruction.random x mask).effect m) :=
  rfl

theorem waitForKey_of_empty (x : Register) (hempty : m.outbox = Outbox.empty) :
    waitForKey x m.pc (m.pc + 2) m =
      .ok ((Instruction.awaitKey x).target m) ((Instruction.awaitKey x).effect m) := by
  unfold waitForKey Instruction.target Instruction.effect
  rw [Failure.bind_of_ok (Failure.get_apply m)]
  cases m.keys.lowestDown? with
  | some key => rfl
  | none => exact Failure.bind_of_ok (request_of_empty .awaitKey hempty)

theorem pointToGlyph_eq (x : Register) :
    pointToGlyph x m = .ok () ((Instruction.pointToGlyph x).effect m) := by
  have hbyte := (m.registers.get x).toNat_lt
  have hword : (m.registers.get x).toUInt16.toNat = (m.registers.get x).toNat :=
    UInt8.toNat_toUInt16 _
  have hsize : Font.glyphSize.toNat = 5 := rfl
  have hbase : Font.base.toNat = 0 := rfl
  have hproduct : Word.mul? Font.glyphSize (m.registers.get x).toUInt16 =
      some (Font.glyphSize * (m.registers.get x).toUInt16) := by
    apply Word.mul?_of_lt
    lia
  have hsum : Word.add? Font.base (Font.glyphSize * (m.registers.get x).toUInt16) =
      some (Font.base + Font.glyphSize * (m.registers.get x).toUInt16) := by
    apply Word.add?_of_lt
    rw [hbase, Nat.zero_add]
    exact UInt16.toNat_lt _
  simp only [pointToGlyph, Failure.bind_apply, Failure.get_apply, hproduct, hsum,
    Failure.orTrap_some]
  rfl

theorem pushAddress_eq (target : Address) :
    pushAddress (m.pc + 2) m =
      Failure.guarded ((Instruction.call target).failure? m) m ()
        ((Instruction.call target).effect m) := by
  unfold Instruction.failure? Instruction.effect
  simp only [pushAddress, Failure.bind_apply, Failure.get_apply, CallStack.push_eq]
  by_cases hfull : m.stack.depth = 16
  · rw [if_pos hfull, if_pos hfull]
    rfl
  · rw [if_neg hfull, if_neg hfull]
    rfl

theorem popAddress_eq :
    popAddress m =
      Failure.guarded (Instruction.ret.failure? m) m (Instruction.ret.target m)
        (Instruction.ret.effect m) := by
  unfold Instruction.failure? Instruction.target Instruction.effect
  simp only [popAddress, Failure.bind_apply, Failure.get_apply, CallStack.pop_eq]
  by_cases hempty : m.stack.depth = 0
  · rw [if_pos hempty, if_pos hempty]
    rfl
  · rw [if_neg hempty, if_neg hempty]
    rfl

theorem jumpOffset_le (base : Address) :
    base.toWord.toNat + (m.registers.get offsetRegister).toUInt16.toNat ≤ 4350 := by
  have hbase := base.isLt
  have hoffset := (m.registers.get offsetRegister).toNat_lt
  rw [base.toNat_toWord, UInt8.toNat_toUInt16]
  lia

theorem jumpOffset_eq (base : Address) :
    (Failure.orTrap
      (Word.add? base.toWord (m.registers.get offsetRegister).toUInt16) : MachineM UInt16) m =
      .ok ((Instruction.jumpOffset base).target m) m := by
  have hsum := Word.add?_of_lt
    (Nat.lt_of_le_of_lt (jumpOffset_le (m := m) base) (by decide))
  rw [hsum]
  rfl

theorem skipIf_eq (condition : Condition) :
    ((do return if ← Failure.attempt (condition.holds m) then m.pc + 4 else m.pc + 2) :
      MachineM UInt16) m = (Instruction.skipIf condition).result m := by
  unfold Instruction.result Instruction.failure? Instruction.target Instruction.effect
  dsimp only
  cases condition.holds m with
  | error cause => rfl
  | ok holds =>
      cases holds with
      | false => rfl
      | true => rfl

/-!
## Every instruction
-/

theorem execute_eq (hpc : m.pc.toNat ≤ 4094) (hempty : m.outbox = Outbox.empty)
    (instruction : Instruction) : execute instruction m = instruction.result m := by
  unfold execute
  -- The addresses of the next two words are formed for every instruction.
  rw [Failure.bind_of_ok (Failure.get_apply m), next?_eq hpc, skip?_eq hpc,
    Failure.bind_of_ok (Failure.orTrap_some (m.pc + 2) m),
    Failure.bind_of_ok (Failure.orTrap_some (m.pc + 4) m)]
  cases instruction with
  | clearScreen => exact Failure.bind_of_ok (clearScreen_of_empty hempty)
  | ret => exact popAddress_eq
  | call target =>
      exact Failure.bind_pure_of_guarded (fun _ => target.toWord) (pushAddress_eq target)
  | jumpOffset base => exact jumpOffset_eq base
  | skipIf condition => exact skipIf_eq condition
  | random x mask => exact Failure.bind_of_ok (drawRandom_eq x mask)
  | draw x y rows => exact Failure.bind_pure_of_guarded (fun _ => m.pc + 2) (draw_eq x y rows)
  | awaitKey x => exact waitForKey_of_empty x hempty
  | pointToGlyph x => exact Failure.bind_of_ok (pointToGlyph_eq x)
  | storeDecimal x =>
      exact Failure.bind_pure_of_guarded (fun _ => m.pc + 2) (storeDecimal_eq x)
  | storeRegisters x =>
      exact Failure.bind_pure_of_guarded (fun _ => m.pc + 2) (storeRegisters_eq x)
  | loadRegisters x =>
      exact Failure.bind_pure_of_guarded (fun _ => m.pc + 2) (loadRegisters_eq x)
  | routine | jump | setByte | addByte | binary | unary | setIndex | readDelay | setDelay
  | setSound | addIndex => rfl

end Machine

end Chip8
