import Chip8.Proofs.Host.Operation
import Chip8.Proofs.Runner.Incidentals
import Chip8.Proofs.Runner.Pacing

/-!
# Resetting

A reset leaves nothing of what a machine went through but the requests in its outbox, and a
cycle clears these before it does anything else. So nothing that is done afterwards can tell
a machine that was reset from one just switched on. A runner resets its machine, and goes on
like a new one with the same count of cycles, on a terminal that was written to before.
-/

namespace Chip8

namespace Failure

variable {σ α β : Type} {relation : σ → σ → Prop} {s t : σ}

def reply : EStateM.Result Failure σ α → Except Failure α
  | .ok value _ => .ok value
  | .error failure _ => .error failure

def replies : List (EStateM Failure σ α) → σ → List (Except Failure α)
  | [], _ => []
  | operation :: rest, s => reply (operation s) :: replies rest (stateOf (operation s))

def stateBehind (operations : List (EStateM Failure σ α)) (s : σ) : σ :=
  operations.foldl (fun s operation => stateOf (operation s)) s

/-!
## Operations that cannot tell states apart
-/

def Respects (relation : σ → σ → Prop) (operation : EStateM Failure σ α) : Prop :=
  forall s t, relation s t -> Related relation (operation s) (operation t)

theorem related_refl (hrefl : forall s, relation s s) (result : EStateM.Result Failure σ α) :
    Related relation result result := by
  cases result with
  | ok value after => exact .ok (hrefl after)
  | error failure after => exact .error (hrefl after)

theorem Respects.pure (value : α) : Respects relation (pure value : EStateM Failure σ α) :=
  fun _ _ h => .ok h

theorem Respects.throw (failure : Failure) :
    Respects relation (throw failure : EStateM Failure σ α) :=
  fun _ _ h => .error h

theorem Respects.bind {first : EStateM Failure σ α} {rest : α → EStateM Failure σ β}
    (hfirst : Respects relation first) (hrest : forall value, Respects relation (rest value)) :
    Respects relation (first >>= rest) := by
  intro s t h
  have hrelated := hfirst s t h
  rw [bind_apply, bind_apply]
  generalize first s = result at hrelated ⊢
  generalize first t = other at hrelated ⊢
  cases hrelated with
  | ok hafter => exact hrest _ _ _ hafter
  | error hafter => exact .error hafter

theorem Related.reply_eq {result other : EStateM.Result Failure σ α}
    (h : Related relation result other) : reply other = reply result := by
  cases h with
  | ok hafter => rfl
  | error hafter => rfl

theorem replies_of_related {operations : List (EStateM Failure σ α)}
    (hoperations : ∀ operation ∈ operations, Respects relation operation) (h : relation s t) :
    replies operations t = replies operations s ∧
      relation (stateBehind operations s) (stateBehind operations t) := by
  induction operations generalizing s t with
  | nil => exact ⟨rfl, h⟩
  | cons operation rest ih =>
      rcases List.forall_mem_cons.mp hoperations with ⟨hoperation, hrest⟩
      have hrelated := hoperation s t h
      rcases ih hrest hrelated.stateOf with ⟨hreplies, hlast⟩
      exact ⟨by rw [replies, replies, hrelated.reply_eq, hreplies], hlast⟩

end Failure

open Failure (Respects)

namespace Machine

variable {m other : Machine}

def SameButRequests (m other : Machine) : Prop :=
  exists outbox, other = { m with outbox }

theorem sameButRequests_refl (m : Machine) : m.SameButRequests m :=
  ⟨m.outbox, rfl⟩

theorem reset_eq (m : Machine) : reset m = .ok () { powerOn with outbox := m.outbox } :=
  rfl

theorem reset_twice : (do reset; reset) = reset := by
  funext m
  rw [Failure.bind_apply, reset_eq]
  exact reset_eq _

theorem cycle_of_sameButRequests (h : m.SameButRequests other) : other.cycle = m.cycle := by
  rcases h with ⟨outbox, rfl⟩
  have hbegun : begun { m with outbox } = begun m := rfl
  unfold cycle
  rw [Failure.bind_apply, Failure.bind_apply, Failure.modify_apply, Failure.modify_apply, hbegun]

theorem frame_of_sameButRequests (h : m.SameButRequests other) : other.frame = m.frame := by
  have hcycle := cycle_of_sameButRequests h
  have hword : other.executedWord? = m.executedWord? := by
    rcases h with ⟨outbox, rfl⟩
    rw [executedWord?, executedWord?, hcycle]
  rw [frame, frame, hword, cycled, cycled, hcycle]

theorem respects_reset : Respects SameButRequests reset := by
  rintro m _ ⟨outbox, rfl⟩
  rw [reset_eq, reset_eq]
  exact .ok ⟨outbox, rfl⟩

theorem respects_load (program : List UInt8) : Respects SameButRequests (load program) := by
  rintro m _ ⟨outbox, rfl⟩
  simp only [load, Failure.bind_apply, Failure.get_apply]
  cases m.memory.load program with
  | ok memory => exact .ok ⟨outbox, rfl⟩
  | error cause => exact .error ⟨outbox, rfl⟩

theorem respects_loadFile (content : Except FileFault (List UInt8)) :
    Respects SameButRequests (loadFile content) := by
  cases content with
  | error fault => exact .throw _
  | ok program => exact (respects_load program).bind fun _ => .pure _

theorem respects_press (key : Nat) (down : Bool) :
    Respects SameButRequests (press key down) := by
  rintro m _ ⟨outbox, rfl⟩
  simp only [press, Failure.bind_apply, Failure.get_apply]
  cases m.keys.setDown key down with
  | ok keys => exact .ok ⟨outbox, rfl⟩
  | error cause => exact .error ⟨outbox, rfl⟩

theorem respects_countDownTimers : Respects SameButRequests countDownTimers := by
  rintro m _ ⟨outbox, rfl⟩
  exact .ok ⟨outbox, rfl⟩

theorem respects_nextRandom : Respects SameButRequests nextRandom := by
  rintro m _ ⟨outbox, rfl⟩
  exact .ok ⟨outbox, rfl⟩

theorem respects_cycle : Respects SameButRequests cycle := by
  intro m other h
  rw [cycle_of_sameButRequests h]
  exact Failure.related_refl sameButRequests_refl m.cycle

end Machine

namespace Operation

open Machine

variable {m other : Machine}

theorem respects_run (operation : Operation) : Respects SameButRequests operation.run := by
  cases operation with
  | reset => exact respects_reset.bind fun _ => .pure _
  | load program => exact (respects_load program).bind fun _ => .pure _
  | loadFile content => exact (respects_loadFile content).bind fun _ => .pure _
  | press key down => exact (respects_press key down).bind fun _ => .pure _
  | countDown => exact respects_countDownTimers.bind fun _ => .pure _
  | random => exact respects_nextRandom.bind fun _ => .pure _
  | cycle outbox =>
      have hreceive : Respects SameButRequests (modify fun m : Machine => { m with outbox }) := by
        rintro m _ ⟨_, rfl⟩
        exact .ok ⟨outbox, rfl⟩
      exact hreceive.bind fun _ => respects_cycle.bind fun _ => .pure _

theorem stateBehind_map_run (operations : List Operation) (m : Machine) :
    Failure.stateBehind (operations.map run) m = afterAll operations m := by
  rw [Failure.stateBehind, List.foldl_map]
  rfl

theorem replies_of_sameButRequests (operations : List Operation) (h : m.SameButRequests other) :
    Failure.replies (operations.map run) other = Failure.replies (operations.map run) m ∧
      (afterAll operations m).SameButRequests (afterAll operations other) := by
  rw [← stateBehind_map_run, ← stateBehind_map_run]
  apply Failure.replies_of_related _ h
  intro operation hoperation
  rcases List.mem_map.mp hoperation with ⟨operation, _, rfl⟩
  exact respects_run operation

theorem afterAll_of_cycle (before behind : List Operation) (outbox : Outbox)
    (h : m.SameButRequests other) :
    afterAll (before ++ cycle outbox :: behind) other =
      afterAll (before ++ cycle outbox :: behind) m := by
  rcases (replies_of_sameButRequests before h).2 with ⟨stale, hstale⟩
  have hcycle : (cycle outbox).after (afterAll before other) =
      (cycle outbox).after (afterAll before m) := by
    rw [hstale, after_cycle, after_cycle]
  rw [afterAll, afterAll, List.foldl_append, List.foldl_append, List.foldl_cons, List.foldl_cons]
  exact congrArg (afterAll behind) hcycle

end Operation

/-!
## Runners
-/

inductive Errand where
  | operate (operation : Operation)
  | batch (count : Nat)
  | paced

namespace Runner

variable {r other : Runner} {earlier : String}

/-- The other runner differs at most in the requests and in what its terminal showed
earlier. -/
def SameSince (earlier : String) (r other : Runner) : Prop :=
  exists outbox,
    other =
      { r with machine := { r.machine with outbox }, terminal := earlier ++ r.terminal }

def restarted (r : Runner) : Runner :=
  { r with machine := { Machine.powerOn with outbox := r.machine.outbox } }

/-- A runner that was just made, except that it has counted as many cycles. -/
def renewed (r : Runner) : Runner where
  options := r.options
  cycles := r.cycles

theorem onMachine_reset (r : Runner) : onMachine Machine.reset r = .ok () r.restarted :=
  onMachine_ok (Machine.reset_eq r.machine)

theorem sameSince_restarted (r : Runner) : SameSince r.terminal r.renewed r.restarted := by
  refine ⟨r.machine.outbox, ?_⟩
  simp only [renewed, restarted, String.append_empty]

theorem SameSince.options (h : SameSince earlier r other) : other.options = r.options := by
  rcases h with ⟨outbox, rfl⟩
  rfl

theorem SameSince.cycles (h : SameSince earlier r other) : other.cycles = r.cycles := by
  rcases h with ⟨outbox, rfl⟩
  rfl

theorem respects_onMachine {α : Type} {operation : MachineM α}
    (h : Respects Machine.SameButRequests operation) :
    Respects (SameSince earlier) (onMachine operation) := by
  rintro r _ ⟨outbox, rfl⟩
  have hrelated := h r.machine { r.machine with outbox } ⟨outbox, rfl⟩
  unfold onMachine
  dsimp only
  generalize operation r.machine = result at hrelated ⊢
  generalize operation { r.machine with outbox } = otherResult at hrelated ⊢
  cases hrelated with
  | ok hafter =>
      rcases hafter with ⟨stale, rfl⟩
      exact .ok ⟨stale, rfl⟩
  | error hafter =>
      rcases hafter with ⟨stale, rfl⟩
      exact .error ⟨stale, rfl⟩

theorem sameSince_printed (h : SameSince earlier r other) (text : String) :
    SameSince earlier (r.printed text) (other.printed text) := by
  rcases h with ⟨outbox, rfl⟩
  exact ⟨outbox, by simp only [printed, String.append_assoc]⟩

theorem respects_runCycle (render : Bool) :
    Respects (SameSince earlier) (runCycle render) := by
  rintro r _ ⟨outbox, rfl⟩
  have hcycle : Machine.cycle { r.machine with outbox } = r.machine.cycle :=
    Machine.cycle_of_sameButRequests ⟨outbox, rfl⟩
  have hhalt : Machine.halt? { r.machine with outbox } = r.machine.halt? := rfl
  rw [runCycle_eq, runCycle_eq]
  dsimp only
  rw [hcycle, hhalt, Machine.frame_of_sameButRequests ⟨outbox, rfl⟩]
  cases r.machine.cycle with
  | error failure after => exact .error ⟨after.outbox, rfl⟩
  | ok outcome after =>
      dsimp only
      split
      · exact .ok (sameSince_printed ⟨after.outbox, rfl⟩ _)
      · exact .error ⟨after.outbox, rfl⟩

theorem respects_runFor (count : Nat) : Respects (SameSince earlier) (runFor count) := by
  induction count with
  | zero => exact .pure _
  | succ count ih =>
      refine (respects_runCycle false).bind fun reason? => ?_
      cases reason? with
      | some reason => exact .pure reason
      | none => exact ih

theorem respects_turn : Respects (SameSince earlier) turn := by
  intro r other h
  have hreached : other.atLimit = r.atLimit := by
    rcases h with ⟨outbox, rfl⟩
    rfl
  by_cases hlimit : r.atLimit = true
  · rw [turn_of_limit hlimit, turn_of_limit (hreached.trans hlimit)]
    exact .ok h
  · rw [turn_of_not_limit hlimit, turn_of_not_limit (by rw [hreached]; exact hlimit), h.options]
    exact respects_runCycle r.options.render r other h

theorem respects_turns (count : Nat) : Respects (SameSince earlier) (turns count) := by
  induction count with
  | zero => exact .throw _
  | succ count ih =>
      refine respects_turn.bind fun reason? => ?_
      cases reason? with
      | some reason => exact .pure reason
      | none => exact ih

theorem respects_run : Respects (SameSince earlier) run := by
  intro r other h
  by_cases hrate : r.options.rate = 0
  · rw [run_of_zero_rate hrate, run_of_zero_rate (by rw [h.options]; exact hrate)]
    exact .error h
  · rw [run_eq_turns hrate, run_eq_turns (by rw [h.options]; exact hrate), h.cycles]
    exact respects_turns _ r other h

end Runner

namespace Errand

def run : Errand → RunnerM (Answer ⊕ Halt)
  | .operate operation => return .inl (← Runner.onMachine operation.run)
  | .batch count => return .inr (← Runner.runFor count)
  | .paced => return .inr (← Runner.run)

theorem respects_run {earlier : String} (errand : Errand) :
    Respects (Runner.SameSince earlier) errand.run := by
  cases errand with
  | operate operation =>
      exact (Runner.respects_onMachine operation.respects_run).bind fun _ => .pure _
  | batch count => exact (Runner.respects_runFor count).bind fun _ => .pure _
  | paced => exact Runner.respects_run.bind fun _ => .pure _

theorem replies_of_sameSince {earlier : String} {r other : Runner} (errands : List Errand)
    (h : Runner.SameSince earlier r other) :
    Failure.replies (errands.map run) other = Failure.replies (errands.map run) r ∧
      Runner.SameSince earlier (Failure.stateBehind (errands.map run) r)
        (Failure.stateBehind (errands.map run) other) := by
  apply Failure.replies_of_related _ h
  intro operation hoperation
  rcases List.mem_map.mp hoperation with ⟨errand, _, rfl⟩
  exact errand.respects_run

end Errand

/-- Whatever was done to a machine and whatever its parts hold, a reset succeeds and leaves the
machine that is switched on, but for the requests, and a second reset changes nothing. From
there everything that a host does gets the replies of a machine just switched on and leaves
the same machine, and behind a cycle the requests are the same too. A runner that resets its
machine keeps its count of cycles, and goes on like a new one with that count, behind what
its terminal already shows. -/
theorem reset_erases_history :
    (forall m : Machine,
      Machine.reset m = .ok () { Machine.powerOn with outbox := m.outbox }) ∧
    (do Machine.reset; Machine.reset) = Machine.reset ∧
    (forall (history later : List Operation) (m : Machine),
      let restarted := Operation.afterAll (history ++ [.reset]) m
      Failure.replies (later.map Operation.run) restarted =
          Failure.replies (later.map Operation.run) Machine.powerOn ∧
        exists outbox, Operation.afterAll later restarted =
          { Operation.afterAll later Machine.powerOn with outbox }) ∧
    (forall (history before behind : List Operation) (outbox : Outbox) (m : Machine),
      Operation.afterAll (before ++ .cycle outbox :: behind)
          (Operation.afterAll (history ++ [.reset]) m) =
        Operation.afterAll (before ++ .cycle outbox :: behind) Machine.powerOn) ∧
    (forall r : Runner,
      Runner.onMachine Machine.reset r = .ok () r.restarted ∧
        forall errands : List Errand,
          Failure.replies (errands.map Errand.run) r.restarted =
              Failure.replies (errands.map Errand.run) r.renewed ∧
            Runner.SameSince r.terminal (Failure.stateBehind (errands.map Errand.run) r.renewed)
              (Failure.stateBehind (errands.map Errand.run) r.restarted)) := by
  have hreset : forall (history : List Operation) (m : Machine),
      Machine.powerOn.SameButRequests (Operation.afterAll (history ++ [.reset]) m) := by
    intro history m
    rw [Operation.afterAll, List.foldl_append]
    exact ⟨_, Operation.after_reset⟩
  refine ⟨Machine.reset_eq, Machine.reset_twice, fun history later m => ?_,
    fun history before behind outbox m => ?_, fun r => ⟨r.onMachine_reset, fun errands => ?_⟩⟩
  · exact Operation.replies_of_sameButRequests later (hreset history m)
  · exact Operation.afterAll_of_cycle before behind outbox (hreset history m)
  · exact Errand.replies_of_sameSince errands r.sameSince_restarted

end Chip8
