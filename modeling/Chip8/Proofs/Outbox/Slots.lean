import Mathlib.Data.List.DropRight
import Chip8.Outbox.Slots
import Chip8.Proofs.Host.Operation

/-!
# Requests in slots

An outbox and the slots that requests are stored in answer the same calls. Whatever was pushed
into either of them and however often it was cleared, it shows the first two requests that were
pushed since it was last cleared, and nothing else: what earlier requests left in the slots, or
what new ones are filled with, is not to be seen.
-/

namespace Chip8

structure RequestStore (σ : Type) where
  new : σ
  clear : σ → σ
  push : Request → EStateM Failure σ Unit
  requests : σ → List Request
  size : σ → Nat
  isEmpty : σ → Bool
  contains : σ → Request → Bool

namespace RequestStore

inductive Call where
  | push (request : Request)
  | clear
  | contains (request : Request)
  | requests
  deriving DecidableEq, Repr

def Call.pushed? : Call → Option Request
  | push request => some request
  | _ => none

def Call.clears : Call → Bool
  | clear => true
  | _ => false

def pushedSince (calls : List Call) : List Request :=
  (calls.rtakeWhile fun call => !call.clears).filterMap Call.pushed?

variable {σ : Type}

def after (store : RequestStore σ) (s : σ) : Call → σ
  | .push request => Failure.stateOf (store.push request s)
  | .clear => store.clear s
  | .contains _ | .requests => s

def afterAll (store : RequestStore σ) (calls : List Call) : σ :=
  calls.foldl store.after store.new

/-- All that can be seen of the store is what can be seen of the list. A third request is
refused and changes nothing. -/
structure Shows (store : RequestStore σ) (s : σ) (content : List Request) : Prop where
  requests : store.requests s = content
  size : store.size s = content.length
  isEmpty : store.isEmpty s = true ↔ content = []
  contains : forall request, store.contains s request = true ↔ request ∈ content
  push : forall request,
    (content.length = 2 ∧ store.push request s = .error (.error (.outboxFull 2)) s) ∨
    (content.length < 2 ∧ exists after, store.push request s = .ok () after ∧
      store.requests after = content ++ [request])

structure Lawful (store : RequestStore σ) : Prop where
  shows : forall s, store.Shows s (store.requests s)
  requests_new : store.requests store.new = []
  requests_clear : forall s, store.requests (store.clear s) = []

/-!
## Calls
-/

theorem pushedSince_append_clear (calls : List Call) : pushedSince (calls ++ [.clear]) = [] := by
  rw [pushedSince, List.rtakeWhile_concat_neg _ _ _ Bool.false_ne_true]
  rfl

theorem pushedSince_append {call : Call} (h : call.clears = false) (calls : List Call) :
    pushedSince (calls ++ [call]) = pushedSince calls ++ call.pushed?.toList := by
  have hkept : (!call.clears) = true := by rw [h, Bool.not_false]
  rw [pushedSince, List.rtakeWhile_concat, if_pos hkept, List.filterMap_append, pushedSince]
  cases call with
  | push request => rfl
  | clear | contains request | requests => rfl

theorem afterAll_append (store : RequestStore σ) (calls : List Call) (call : Call) :
    store.afterAll (calls ++ [call]) = store.after (store.afterAll calls) call :=
  List.foldl_concat store.after store.new call calls

theorem requests_afterAll {store : RequestStore σ} (h : store.Lawful) (calls : List Call) :
    store.requests (store.afterAll calls) = (pushedSince calls).take 2 := by
  induction calls using List.reverseRecOn with
  | nil => exact h.requests_new
  | append_singleton calls call ih =>
      rw [afterAll_append]
      cases call with
      | clear =>
          rw [pushedSince_append_clear]
          exact h.requests_clear _
      | contains request | requests =>
          rw [pushedSince_append rfl]
          exact ih.trans (congrArg _ (List.append_nil _).symm)
      | push request =>
          rw [pushedSince_append rfl]
          show store.requests (Failure.stateOf (store.push request _)) =
            (pushedSince calls ++ [request]).take 2
          have hlength := congrArg List.length ih
          rw [List.length_take] at hlength
          -- Refused or not, the request counts among those that were pushed.
          rcases (h.shows (store.afterAll calls)).push request with
            ⟨hfull, hpush⟩ | ⟨hroom, after, hpush, hrequests⟩
          · have hlong : 2 ≤ (pushedSince calls).length := by lia
            rw [hpush, List.take_append_of_le_length hlong]
            exact ih
          · have hshort : (pushedSince calls).length < 2 := by lia
            have hfits : (pushedSince calls ++ [request]).length ≤ 2 := by
              rw [List.length_append, List.length_singleton]
              exact hshort
            rw [hpush, List.take_of_length_le hfits]
            show store.requests after = _
            rw [hrequests, ih, List.take_of_length_le (Nat.le_of_lt hshort)]

end RequestStore

open RequestStore (Shows Lawful)

/-!
## Slots
-/

namespace Slots

variable {slots : Slots}

def store : RequestStore Slots where
  new := new
  clear := clear
  push := push
  requests := requests
  size := size
  isEmpty := isEmpty
  contains := contains

theorem push_of_full (h : slots.used = Outbox.capacity) (request : Request) :
    push request slots = .error (.error (.outboxFull 2)) slots := by
  simp only [push, Failure.bind_apply, Failure.get_apply, dif_pos h]
  rfl

theorem push_of_room (h : slots.used ≠ Outbox.capacity) (request : Request) :
    exists after, push request slots = .ok () after ∧
      after.requests = slots.requests ++ [request] := by
  have hroom : slots.used < Outbox.capacity := Nat.lt_of_le_of_ne slots.used_le h
  refine ⟨⟨slots.places.set slots.used request hroom, slots.used + 1, hroom⟩, ?_, ?_⟩
  · simp only [push, Failure.bind_apply, Failure.get_apply, dif_neg h]
    rfl
  · have hplace : slots.used < (slots.places.toList.set slots.used request).length := by
      rw [List.length_set, Vector.length_toList]
      exact hroom
    rw [requests, Vector.toList_set, ← List.take_append_getElem hplace, List.getElem_set_self,
      List.take_set_of_le (Nat.le_refl slots.used)]
    rfl

theorem lawful_store : store.Lawful where
  shows slots := {
    requests := rfl
    size := slots.length_requests.symm
    isEmpty := by
      show slots.isEmpty = true ↔ slots.requests = []
      rw [← List.length_eq_zero_iff, length_requests]
      exact beq_iff_eq
    contains := fun _ => List.contains_iff_mem
    push := by
      intro request
      show (slots.requests.length = 2 ∧ _) ∨ (slots.requests.length < 2 ∧ _)
      rw [length_requests]
      by_cases hfull : slots.used = Outbox.capacity
      · exact Or.inl ⟨hfull, push_of_full hfull request⟩
      · exact Or.inr ⟨Nat.lt_of_le_of_ne slots.used_le hfull, push_of_room hfull request⟩ }
  requests_new := rfl
  requests_clear _ := rfl

end Slots

/-!
## Outboxes
-/

namespace Outbox

variable {outbox : Outbox}

def store : RequestStore Outbox where
  new := empty
  clear := fun _ => empty
  push := fun request => do
    let outbox ← get
    set (← Failure.attempt (outbox.push request))
  requests := requests
  size := size
  isEmpty := isEmpty
  contains := contains

theorem store_push_of_full (h : outbox.requests.length = 2) (request : Request) :
    store.push request outbox = .error (.error (.outboxFull 2)) outbox := by
  have hpush : outbox.push request = .error (.outboxFull 2) :=
    dif_neg fun hroom => Nat.ne_of_lt hroom h
  simp only [store, Failure.bind_apply, Failure.get_apply, hpush, Failure.attempt_error]

theorem store_push_of_room (h : outbox.requests.length < 2) (request : Request) :
    exists after, store.push request outbox = .ok () after ∧
      after.requests = outbox.requests ++ [request] := by
  have hlength : (outbox.requests ++ [request]).length ≤ 2 := by
    rw [List.length_append]
    exact h
  have hpush : outbox.push request = .ok ⟨outbox.requests ++ [request], hlength⟩ := dif_pos h
  refine ⟨⟨outbox.requests ++ [request], hlength⟩, ?_, rfl⟩
  simp only [store, Failure.bind_apply, Failure.get_apply, hpush, Failure.attempt_ok]
  rfl

theorem lawful_store : store.Lawful where
  shows outbox := {
    requests := rfl
    size := rfl
    isEmpty := List.isEmpty_iff
    contains := fun _ => List.contains_iff_mem
    push := by
      intro request
      rcases Nat.lt_or_eq_of_le outbox.length_le with hroom | hfull
      · exact Or.inr ⟨hroom, store_push_of_room hroom request⟩
      · exact Or.inl ⟨hfull, store_push_of_full hfull request⟩ }
  requests_new := rfl
  requests_clear _ := rfl

end Outbox

namespace RequestStore

/-- Whatever is called, the slots and the outbox show the first two requests that were pushed
since the last clearing, in their order, and refuse another one exactly if there are two. -/
theorem first_two_requests_are_kept (calls : List Call) :
    Slots.store.Shows (Slots.store.afterAll calls) ((pushedSince calls).take 2) ∧
      Outbox.store.Shows (Outbox.store.afterAll calls) ((pushedSince calls).take 2) := by
  have hslots := Slots.lawful_store.shows (Slots.store.afterAll calls)
  have houtbox := Outbox.lawful_store.shows (Outbox.store.afterAll calls)
  rw [requests_afterAll Slots.lawful_store] at hslots
  rw [requests_afterAll Outbox.lawful_store] at houtbox
  exact ⟨hslots, houtbox⟩

example :
    Slots.store.requests (Slots.store.afterAll [.push .awaitKey, .clear, .push .clearDisplay]) =
      [.clearDisplay] := by
  decide

end RequestStore

end Chip8
