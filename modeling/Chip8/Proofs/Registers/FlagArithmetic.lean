import Chip8.Proofs.Registers.Reading
import Mathlib.Data.Nat.Bitwise

/-!
# Arithmetic with a flag

What the operations with a flag compute, as equations between numbers. The flag is written
before the result is computed, so an operand in the flag register takes part with the new
flag, and a result there replaces it. Each law has a case for every way in which the
operands can be the flag register.
-/

namespace Chip8

namespace Registers

def value (registers : Registers) (x : Register) : Nat :=
  (registers.get x).toNat

def carry (a b : Nat) : Nat :=
  if 255 < a + b then 1 else 0

def exceeds (a b : Nat) : Nat :=
  if b < a then 1 else 0

/-!
## The laws
-/

structure Adds (before after : Registers) (x y : Register) : Prop where
  apart : x ≠ flagRegister -> y ≠ flagRegister ->
    after.value x + 256 * after.value flagRegister = before.value x + before.value y ∧
      after.value flagRegister = carry (before.value x) (before.value y)
  toFlag : x = flagRegister -> y ≠ flagRegister ->
    after.value flagRegister =
      (carry (before.value x) (before.value y) + before.value y) % 256
  ofFlag : x ≠ flagRegister -> y = flagRegister ->
    after.value flagRegister = carry (before.value x) (before.value y) ∧
      after.value x = (before.value x + carry (before.value x) (before.value y)) % 256
  both : x = flagRegister -> y = flagRegister ->
    after.value flagRegister = 2 * carry (before.value x) (before.value y)

structure Subtracts (before after : Registers) (x a b : Register) : Prop where
  flag : x ≠ flagRegister ->
    after.value flagRegister = exceeds (before.value a) (before.value b)
  apart : a ≠ flagRegister -> b ≠ flagRegister ->
    (after.value x : Int) = ((before.value a : Int) - before.value b) % 256
  ofFlag : a = flagRegister -> b ≠ flagRegister ->
    (after.value x : Int) =
      ((exceeds (before.value a) (before.value b) : Int) - before.value b) % 256
  byFlag : a ≠ flagRegister -> b = flagRegister ->
    (after.value x : Int) =
      ((before.value a : Int) - exceeds (before.value a) (before.value b)) % 256
  both : a = flagRegister -> b = flagRegister -> after.value x = 0

structure Halves (before after : Registers) (x : Register) : Prop where
  apart : x ≠ flagRegister ->
    before.value x = 2 * after.value x + after.value flagRegister ∧
      after.value flagRegister ≤ 1
  flag : x = flagRegister -> after.value flagRegister = 0

structure Doubles (before after : Registers) (x : Register) : Prop where
  apart : x ≠ flagRegister ->
    2 * before.value x = after.value x + 256 * after.value flagRegister ∧
      after.value flagRegister ≤ 1
  flag : x = flagRegister ->
    after.value flagRegister = if 128 ≤ before.value x then 2 else 0

variable {registers : Registers} {op : BinaryOp} {x y z : Register} {flag : Bool}

/-!
## Reading back
-/

theorem value_lt (registers : Registers) (x : Register) : registers.value x < 256 :=
  (registers.get x).toNat_lt

theorem toNat_toUInt8 (flag : Bool) : flag.toUInt8.toNat = flag.toNat := by
  cases flag <;> rfl

theorem value_setFlag_of_ne (h : z ≠ flagRegister) :
    (registers.setFlag flag).value z = registers.value z :=
  congrArg UInt8.toNat (get_setFlag_of_ne h)

theorem value_setFlag : (registers.setFlag flag).value flagRegister = flag.toNat :=
  (congrArg UInt8.toNat (get_put_self _)).trans (toNat_toUInt8 flag)

theorem value_combine (h : op.flag? (registers.get x) (registers.get y) = some flag) :
    (registers.combine op x y).value x =
      (op.result ((registers.setFlag flag).get x) ((registers.setFlag flag).get y)).toNat := by
  unfold value combine
  rw [h, get_put_self]
  rfl

theorem value_flag_combine (h : op.flag? (registers.get x) (registers.get y) = some flag)
    (hx : x ≠ flagRegister) :
    (registers.combine op x y).value flagRegister = flag.toNat := by
  unfold value combine
  rw [get_put_of_ne hx.symm, h]
  exact value_setFlag

theorem value_change {op : UnaryOp} (h : op.flag (registers.get x) = flag) :
    (registers.change op x).value x = (op.result ((registers.setFlag flag).get x)).toNat := by
  unfold value change
  rw [h, get_put_self]

theorem value_flag_change {op : UnaryOp} (h : op.flag (registers.get x) = flag)
    (hx : x ≠ flagRegister) :
    (registers.change op x).value flagRegister = flag.toNat := by
  unfold value change
  rw [get_put_of_ne hx.symm, h]
  exact value_setFlag

/-!
## Sums
-/

theorem toNat_carry (a b : Nat) : (decide (255 < a + b)).toNat = carry a b := by
  unfold carry
  split
  · rename_i h
    rw [decide_eq_true h]
    rfl
  · rename_i h
    rw [decide_eq_false h]
    rfl

theorem carry_le (a b : Nat) : carry a b ≤ 1 := by
  unfold carry
  split
  · exact Nat.le_refl 1
  · exact Nat.zero_le 1

theorem add_carry {a b : Nat} (ha : a < 256) (hb : b < 256) :
    (a + b) % 256 + 256 * carry a b = a + b := by
  unfold carry
  split <;> lia

theorem adds_combine (registers : Registers) (x y : Register) :
    Adds registers (registers.combine .add x y) x y := by
  have hflag : BinaryOp.flag? .add (registers.get x) (registers.get y) =
      some (decide (255 < registers.value x + registers.value y)) := rfl
  have hreport := fun hx : x ≠ flagRegister =>
    (value_flag_combine hflag hx).trans (toNat_carry _ _)
  have hresult := value_combine hflag
  rw [BinaryOp.result, UInt8.toNat_add] at hresult
  change _ = (value _ x + value _ y) % 256 at hresult
  constructor
  · intro hx hy
    rw [hresult, hreport hx, value_setFlag_of_ne hx, value_setFlag_of_ne hy]
    exact ⟨add_carry (value_lt registers x) (value_lt registers y), rfl⟩
  · rintro rfl hy
    rw [hresult, value_setFlag, value_setFlag_of_ne hy, toNat_carry]
  · rintro hx rfl
    rw [hreport hx, hresult, value_setFlag, value_setFlag_of_ne hx, toNat_carry]
    exact ⟨rfl, rfl⟩
  · rintro rfl rfl
    have hcarry := carry_le (registers.value flagRegister) (registers.value flagRegister)
    rw [hresult, value_setFlag, toNat_carry]
    lia

/-!
## Differences
-/

theorem toNat_exceeds (a b : UInt8) : (decide (b < a)).toNat = exceeds a.toNat b.toNat := by
  unfold exceeds
  by_cases h : b < a
  · rw [decide_eq_true h, if_pos (UInt8.lt_iff_toNat_lt.mp h)]
    rfl
  · rw [decide_eq_false h, if_neg (mt UInt8.lt_iff_toNat_lt.mpr h)]
    rfl

theorem toNat_sub_eq_emod (a b : UInt8) :
    ((a - b).toNat : Int) = ((a.toNat : Int) - b.toNat) % 256 := by
  have ha := a.toNat_lt
  have hb := b.toNat_lt
  rw [UInt8.toNat_sub]
  lia

theorem subtracts_of_result {after : Registers} {a b : Register}
    (hflag : flag.toNat = exceeds (registers.value a) (registers.value b))
    (hreport : x ≠ flagRegister -> after.value flagRegister = flag.toNat)
    (hresult : after.value x =
      ((registers.setFlag flag).get a - (registers.setFlag flag).get b).toNat) :
    Subtracts registers after x a b := by
  have hdifference := toNat_sub_eq_emod ((registers.setFlag flag).get a)
    ((registers.setFlag flag).get b)
  rw [← hresult] at hdifference
  change _ = ((value _ a : Int) - value _ b) % 256 at hdifference
  constructor
  · intro hx
    exact (hreport hx).trans hflag
  · intro ha hb
    rw [hdifference, value_setFlag_of_ne ha, value_setFlag_of_ne hb]
  · rintro rfl hb
    rw [hdifference, value_setFlag, value_setFlag_of_ne hb, hflag]
  · rintro ha rfl
    rw [hdifference, value_setFlag, value_setFlag_of_ne ha, hflag]
  · rintro rfl rfl
    rw [hresult, UInt8.sub_self]
    rfl

theorem subtracts_combine (registers : Registers) (x y : Register) :
    Subtracts registers (registers.combine .subtract x y) x x y :=
  subtracts_of_result (toNat_exceeds _ _) (value_flag_combine rfl) (value_combine rfl)

theorem subtracts_combine_from (registers : Registers) (x y : Register) :
    Subtracts registers (registers.combine .subtractFrom x y) x y x :=
  subtracts_of_result (toNat_exceeds _ _) (value_flag_combine rfl) (value_combine rfl)

/-!
## Shifts
-/

theorem halves_change (registers : Registers) (x : Register) :
    Halves registers (registers.change .halve x) x := by
  have hbit : (UnaryOp.flag .halve (registers.get x)).toNat = registers.value x % 2 := by
    rw [UnaryOp.flag, Nat.toNat_testBit, Nat.pow_zero, Nat.div_one]
    rfl
  have hflag : UnaryOp.flag .halve (registers.get x) = _ := rfl
  have hresult := value_change hflag
  rw [UnaryOp.result, UInt8.toNat_div] at hresult
  change _ = value _ x / 2 at hresult
  constructor
  · intro hx
    rw [hresult, value_flag_change hflag hx, value_setFlag_of_ne hx, hbit]
    lia
  · rintro rfl
    rw [hresult, value_setFlag, hbit]
    lia

theorem doubles_change (registers : Registers) (x : Register) :
    Doubles registers (registers.change .double x) x := by
  have hlt := value_lt registers x
  have hbit : (UnaryOp.flag .double (registers.get x)).toNat = registers.value x / 128 := by
    rw [UnaryOp.flag, Nat.toNat_testBit]
    change value _ x / 128 % 2 = _
    lia
  have hflag : UnaryOp.flag .double (registers.get x) = _ := rfl
  have hresult := value_change hflag
  rw [UnaryOp.result, UInt8.toNat_add] at hresult
  change _ = (value _ x + value _ x) % 256 at hresult
  constructor
  · intro hx
    rw [hresult, value_flag_change hflag hx, value_setFlag_of_ne hx, hbit]
    lia
  · rintro rfl
    rw [hresult, value_setFlag, hbit]
    lia

theorem get_change_congr {other : Registers} {op : UnaryOp} (h : other.get x = registers.get x)
    (hz : z = x ∨ z = flagRegister) :
    (other.change op x).get z = (registers.change op x).get z := by
  unfold change
  rw [h]
  generalize op.flag (registers.get x) = flag
  have hflag : (other.setFlag flag).get flagRegister = (registers.setFlag flag).get flagRegister :=
    (get_put_self _).trans (get_put_self _).symm
  have hoperand : (other.setFlag flag).get x = (registers.setFlag flag).get x := by
    by_cases hx : x = flagRegister
    · rw [hx]
      exact hflag
    · rw [get_setFlag_of_ne hx, get_setFlag_of_ne hx, h]
  dsimp only
  rw [hoperand]
  by_cases hzx : z = x
  · rw [hzx, get_put_self, get_put_self]
  · rw [get_put_of_ne hzx, get_put_of_ne hzx, hz.resolve_left hzx]
    exact hflag

end Registers

end Chip8
