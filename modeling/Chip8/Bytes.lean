/-!
# Byte strings of fixed length

Memory and the register file are both arrays of bytes whose length never changes.
A slice is read as a list, and a list is written over the bytes from an address on.
Both are partial: a slice has to lie inside, where an empty one may start at the
end but not beyond it.
-/

namespace Chip8

instance byteOfFlag : Coe Bool UInt8 :=
  ⟨Bool.toUInt8⟩

abbrev Bytes (n : Nat) := Vector UInt8 n

namespace Bytes

variable {n : Nat}

def zeros (n : Nat) : Bytes n :=
  Vector.replicate n 0

def slice? (bytes : Bytes n) (start len : Nat) : Option (List UInt8) :=
  if h : start + len ≤ n then
    some (List.ofFn fun k : Fin len => bytes[start + k.val])
  else none

/-- Writes `content` over the bytes from `start` on; what would fall outside is dropped. -/
def write (bytes : Bytes n) (start : Nat) : List UInt8 → Bytes n
  | [] => bytes
  | b :: rest => write (bytes.setIfInBounds start b) (start + 1) rest

def write? (bytes : Bytes n) (start : Nat) (content : List UInt8) : Option (Bytes n) :=
  if start + content.length ≤ n then some (bytes.write start content) else none

theorem slice?_eq_none_iff {bytes : Bytes n} {start len : Nat} :
    bytes.slice? start len = none ↔ n < start + len := by
  unfold slice?
  split
  · simp only [reduceCtorEq, false_iff]
    lia
  · simp only [true_iff]
    lia

theorem length_of_slice? {bytes : Bytes n} {start len : Nat} {content : List UInt8}
    (h : bytes.slice? start len = some content) : content.length = len := by
  unfold slice? at h
  split at h
  · cases h
    exact List.length_ofFn
  · cases h

theorem getElem?_of_slice? {bytes : Bytes n} {start len : Nat} {content : List UInt8}
    (h : bytes.slice? start len = some content) (k : Nat) (hk : k < len) :
    content[k]? = bytes[start + k]? := by
  unfold slice? at h
  split at h
  · rename_i hfit
    cases h
    have hin : start + k < n := by lia
    simp [hk, hin]
  · cases h

theorem write?_eq_none_iff {bytes : Bytes n} {start : Nat} {content : List UInt8} :
    bytes.write? start content = none ↔ n < start + content.length := by
  unfold write?
  split
  · simp only [reduceCtorEq, false_iff]
    lia
  · simp only [true_iff]
    lia

theorem write?_eq_some_iff {bytes written : Bytes n} {start : Nat} {content : List UInt8} :
    bytes.write? start content = some written ↔
      start + content.length ≤ n ∧ bytes.write start content = written := by
  unfold write?
  split
  · rename_i hfit
    simp [hfit]
  · rename_i hlong
    simp [hlong]

theorem getElem_write (bytes : Bytes n) (start : Nat) (content : List UInt8)
    (i : Nat) (h : i < n) :
    (bytes.write start content)[i] =
      if start ≤ i then content[i - start]?.getD bytes[i] else bytes[i] := by
  induction content generalizing bytes start with
  | nil => simp [write]
  | cons b rest ih =>
      rw [write, ih, Vector.getElem_setIfInBounds]
      by_cases hlt : start + 1 ≤ i
      · have hsub : i - start = (i - (start + 1)) + 1 := by lia
        have hle : start ≤ i := by lia
        have hne : start ≠ i := by lia
        simp [hlt, hle, hne, hsub]
      · by_cases heq : start = i
        · subst heq
          simp [hlt]
        · have hle : ¬ start ≤ i := by lia
          simp [hlt, hle, heq]

end Bytes

end Chip8
