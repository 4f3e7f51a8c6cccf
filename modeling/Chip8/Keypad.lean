import Chip8.Error

/-!
# The keypad

Sixteen keys, each up or down.
-/

namespace Chip8

abbrev Keypad := Vector Bool 16

namespace Keypad

def size : Nat := 16

def released : Keypad :=
  Vector.replicate 16 false

def isDown (keys : Keypad) (key : Nat) : Except Error Bool :=
  if h : key < 16 then .ok keys[key] else .error (.noSuchKey key)

def setDown (keys : Keypad) (key : Nat) (down : Bool) : Except Error Keypad :=
  if h : key < 16 then .ok (keys.set key down) else .error (.noSuchKey key)

theorem isDown_of_setDown {keys changed : Keypad} {key other : Nat} {down : Bool}
    (h : keys.setDown key down = .ok changed) :
    changed.isDown other = if other = key then .ok down else keys.isDown other := by
  unfold setDown at h
  split at h
  · rename_i hkey
    cases h
    unfold isDown
    by_cases heq : other = key
    · subst heq
      simp [hkey]
    · have hne : key ≠ other := fun hsame => heq hsame.symm
      simp [heq, hne]
  · cases h

def lowestDown? (keys : Keypad) : Option (Fin 16) :=
  (List.finRange 16).find? fun key => keys.get key

theorem lowestDown?_eq_none_iff {keys : Keypad} :
    keys.lowestDown? = none ↔ forall key, keys.get key = false := by
  rw [lowestDown?, List.find?_eq_none]
  constructor
  · intro h key
    exact eq_false_of_ne_true (h key (List.mem_finRange key))
  · intro h key _
    rw [h key]
    exact Bool.false_ne_true

end Keypad

end Chip8
