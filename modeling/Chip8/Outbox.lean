import Chip8.Error

/-!
# The outbox

What a cycle asks of whoever hosts the machine. No cycle asks for more than two things,
so two places are enough.
-/

namespace Chip8

inductive Request where
  | clearDisplay
  | awaitKey
  deriving DecidableEq, Repr

structure Outbox where
  requests : List Request
  length_le : requests.length ≤ 2 := by decide
  deriving DecidableEq, Repr

namespace Outbox

def capacity : Nat := 2

def empty : Outbox where
  requests := []

def push (outbox : Outbox) (request : Request) : Except Error Outbox :=
  if h : outbox.requests.length < 2 then
    .ok ⟨outbox.requests ++ [request], by rw [List.length_append]; exact h⟩
  else .error (.outboxFull capacity)

def size (outbox : Outbox) : Nat :=
  outbox.requests.length

def isEmpty (outbox : Outbox) : Bool :=
  outbox.requests.isEmpty

def contains (outbox : Outbox) (request : Request) : Bool :=
  outbox.requests.contains request

end Outbox

end Chip8
