import Chip8.Machine.Cycle

/-!
# Operations of a host

Everything a host can do to a machine, apart from writing its parts directly, as one
type of operations, and what a machine is after an operation or a list of them. An
operation that fails counts as well: the machine goes on from what it left.
-/

namespace Chip8

def Failure.stateOf {σ α : Type} : EStateM.Result Failure σ α → σ
  | .ok _ after => after
  | .error _ after => after

inductive Operation where
  | reset
  | load (program : List UInt8)
  | loadFile (content : Except FileFault (List UInt8))
  | press (key : Nat) (down : Bool)
  | countDown
  | random
  | cycle (outbox : Outbox)

inductive Answer where
  | done
  | length (count : Nat)
  | byte (value : UInt8)
  | outcome (outcome : Outcome)

namespace Operation

def run : Operation → MachineM Answer
  | .reset => do
      Machine.reset
      return .done
  | .load program => do
      Machine.load program
      return .done
  | .loadFile content => return .length (← Machine.loadFile content)
  | .press key down => do
      Machine.press key down
      return .done
  | .countDown => do
      Machine.countDownTimers
      return .done
  | .random => return .byte (← Machine.nextRandom)
  | .cycle outbox => do
      modify fun m => { m with outbox }
      return .outcome (← Machine.cycle)

def after (operation : Operation) (m : Machine) : Machine :=
  Failure.stateOf (operation.run m)

def afterAll (operations : List Operation) (m : Machine) : Machine :=
  operations.foldl (fun m operation => operation.after m) m

theorem afterAll_induction {property : Machine → Prop}
    (hstep : forall operation m, property m -> property (after operation m))
    (operations : List Operation) {m : Machine} (h : property m) :
    property (afterAll operations m) := by
  induction operations generalizing m with
  | nil => exact h
  | cons operation rest ih => exact ih (hstep operation m h)

/-!
## The machine after each operation
-/

variable {m : Machine}

theorem after_reset : reset.after m = { Machine.powerOn with outbox := m.outbox } :=
  rfl

theorem after_countDown : countDown.after m = m.aged :=
  rfl

theorem after_random : random.after m = { m with generator := m.generator.next.2 } :=
  rfl

theorem after_load (program : List UInt8) :
    (load program).after m =
      match m.memory.load program with
      | .ok memory => { m with memory }
      | .error _ => m := by
  unfold after run Machine.load
  simp only [Failure.bind_apply, Failure.get_apply]
  cases m.memory.load program with
  | ok memory => rfl
  | error cause => rfl

theorem after_loadFile (content : Except FileFault (List UInt8)) :
    (loadFile content).after m =
      match content with
      | .ok program => (load program).after m
      | .error _ => m := by
  cases content with
  | error fault => rfl
  | ok program =>
      have hread : (Failure.attempt ((Except.ok program).mapError Error.file) :
          MachineM (List UInt8)) m = .ok program m := rfl
      show (loadFile (.ok program)).after m = (load program).after m
      unfold after run Machine.loadFile
      simp only [Failure.bind_apply, hread]
      cases Machine.load program m with
      | ok value after => rfl
      | error failure after => rfl

theorem after_press (key : Nat) (down : Bool) :
    (press key down).after m =
      match m.keys.setDown key down with
      | .ok keys => { m with keys }
      | .error _ => m := by
  unfold after run Machine.press
  simp only [Failure.bind_apply, Failure.get_apply]
  cases m.keys.setDown key down with
  | ok keys => rfl
  | error cause => rfl

theorem after_cycle (outbox : Outbox) :
    (cycle outbox).after m = Failure.stateOf (Machine.cycle { m with outbox }) := by
  unfold after run
  simp only [Failure.bind_apply, Failure.modify_apply]
  cases Machine.cycle { m with outbox } with
  | ok outcome after => rfl
  | error failure after => rfl

end Operation

end Chip8
