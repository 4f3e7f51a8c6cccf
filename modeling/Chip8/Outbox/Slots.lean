import Chip8.Failure
import Chip8.Outbox

/-!
# The slots of an outbox

How requests are stored: as many slots as an outbox has room for, and a count of those that
are in use. The other slots are never emptied. They hold what was pushed into them before the
outbox was last cleared, and a request that nobody made where nothing was pushed yet.
-/

namespace Chip8

structure Slots where
  places : Vector Request Outbox.capacity
  used : Nat
  used_le : used ≤ Outbox.capacity
  deriving DecidableEq, Repr

namespace Slots

def new : Slots where
  places := Vector.replicate Outbox.capacity .clearDisplay
  used := 0
  used_le := Nat.zero_le Outbox.capacity

/-- Forgets the requests, which stay in their places. -/
def clear (slots : Slots) : Slots :=
  { slots with used := 0, used_le := Nat.zero_le Outbox.capacity }

def push (request : Request) : EStateM Failure Slots Unit := do
  let slots ← get
  if h : slots.used = Outbox.capacity then throw (.error (.outboxFull Outbox.capacity))
  else
    have hroom : slots.used < Outbox.capacity := Nat.lt_of_le_of_ne slots.used_le h
    set { places := slots.places.set slots.used request hroom, used := slots.used + 1,
          used_le := hroom : Slots }

def size (slots : Slots) : Nat :=
  slots.used

def isEmpty (slots : Slots) : Bool :=
  slots.used == 0

def requests (slots : Slots) : List Request :=
  slots.places.toList.take slots.used

def contains (slots : Slots) (request : Request) : Bool :=
  slots.requests.contains request

theorem length_requests (slots : Slots) : slots.requests.length = slots.used := by
  rw [requests, List.length_take, Vector.length_toList]
  exact Nat.min_eq_left slots.used_le

end Slots

end Chip8
