import Chip8.Registers

/-!
# Reading registers back

What a register holds behind each way of writing registers. An operation with a flag
writes two registers, the flag first, so its result stays where both are the same.
-/

namespace Chip8

theorem Bytes.getElem_write_of_outside {n start i : Nat} {bytes : Bytes n}
    {content : List UInt8} (hi : i < n) (houtside : i < start ∨ start + content.length ≤ i) :
    (bytes.write start content)[i] = bytes[i] := by
  rw [getElem_write]
  split
  · rename_i hstart
    have hlength : content.length ≤ i - start := by lia
    rw [List.getElem?_eq_none hlength, Option.getD_none]
  · rfl

theorem Bytes.getElem_write_of_inside {n start i : Nat} {bytes : Bytes n}
    {content : List UInt8} {byte : UInt8} (hi : i < n) (hstart : start ≤ i)
    (hbyte : content[i - start]? = some byte) : (bytes.write start content)[i] = byte := by
  rw [getElem_write, if_pos hstart, hbyte, Option.getD_some]

namespace Registers

variable {registers : Registers} {x y z : Register}

theorem get_put_self (byte : UInt8) : (registers.put x byte).get x = byte := by
  rw [put, Cells.get_put, if_pos rfl]

theorem get_put_of_ne {byte : UInt8} (h : z ≠ x) :
    (registers.put x byte).get z = registers.get z := by
  rw [put, Cells.get_put, if_neg h.symm]

theorem eq_of_get_put_ne {byte : UInt8}
    (h : (registers.put x byte).get z ≠ registers.get z) : z = x :=
  Decidable.of_not_not fun hz => h (get_put_of_ne hz)

theorem get_setFlag_of_ne {flag : Bool} (h : z ≠ flagRegister) :
    (registers.setFlag flag).get z = registers.get z :=
  get_put_of_ne h

theorem get_write_of_le {content : List UInt8} (h : content.length ≤ z.val) :
    (registers.write 0 content).get z = registers.get z := by
  have houtside : z.val < 0 ∨ 0 + content.length ≤ z.val := Or.inr (by lia)
  exact Bytes.getElem_write_of_outside z.isLt houtside

theorem getElem?_take (hz : z ≤ x) :
    (registers.toList.take (x.val + 1))[z.val]? = some (registers.get z) := by
  have hlt : z.val < x.val + 1 := Nat.lt_succ_of_le hz
  have hlength : z.val < registers.toList.length := by
    rw [Vector.length_toList]
    exact z.isLt
  rw [List.getElem?_take_of_lt hlt, List.getElem?_eq_getElem hlength, Vector.getElem_toList]
  rfl

/-!
## Operations
-/

variable {op : BinaryOp}

theorem get_combine_of_ne (hx : z ≠ x) (hflag : z ≠ flagRegister) :
    (registers.combine op x y).get z = registers.get z := by
  rw [combine, get_put_of_ne hx]
  cases op.flag? (registers.get x) (registers.get y) with
  | none => rfl
  | some flag => exact get_setFlag_of_ne hflag

theorem get_combine_of_flag?_eq_none (h : op.flag? (registers.get x) (registers.get y) = none)
    (hx : z ≠ x) : (registers.combine op x y).get z = registers.get z := by
  rw [combine, get_put_of_ne hx, h]
  rfl

theorem get_change_of_ne {op : UnaryOp} (hx : z ≠ x) (hflag : z ≠ flagRegister) :
    (registers.change op x).get z = registers.get z := by
  rw [change, get_put_of_ne hx]
  exact get_setFlag_of_ne hflag

end Registers

end Chip8
