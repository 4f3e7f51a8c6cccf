import Chip8.Machine.Cycle
import Chip8.Options

/-!
# Running programs

A runner owns a machine, counts its cycles and shows its screen on a terminal. It stops
when the program jumps to its own address, wants a key, or leaves memory, and when the
limit on the cycles is reached. A failing cycle ends the run with its failure and is not
counted.
-/

namespace Chip8

inductive Halt where
  | finished
  | awaitingKey
  | counterOutside
  | cycleLimit
  deriving DecidableEq, Repr

def Halt.label : Halt → String
  | .finished => "Finished"
  | .awaitingKey => "AwaitingKey"
  | .counterOutside => "ProgramCounterOutOfBounds"
  | .cycleLimit => "CycleLimit"

structure Runner where
  options : Options
  machine : Machine := Machine.powerOn
  cycles : UInt64 := 0
  terminal : String := ""
  deriving DecidableEq

abbrev RunnerM := EStateM Failure Runner

namespace Runner

def onMachine {α : Type} (operation : MachineM α) : RunnerM α := fun r =>
  match operation r.machine with
  | .ok value machine => .ok value { r with machine }
  | .error failure machine => .error failure { r with machine }

@[simp]
theorem onMachine_ok {α : Type} {operation : MachineM α} {r : Runner} {value : α}
    {machine : Machine} (h : operation r.machine = .ok value machine) :
    onMachine operation r = .ok value { r with machine } := by
  simp [onMachine, h]

@[simp]
theorem onMachine_error {α : Type} {operation : MachineM α} {r : Runner} {failure : Failure}
    {machine : Machine} (h : operation r.machine = .error failure machine) :
    onMachine operation r = .error failure { r with machine } := by
  simp [onMachine, h]

def countCycle : RunnerM Unit := do
  let r ← get
  if r.cycles.toNat + 1 < UInt64.size then
    set { r with cycles := r.cycles + 1 }
  else
    throw .trap

/-! ## The terminal -/

def clearSequence : String := "\x1b[2J\x1b[H"

def print (text : String) : RunnerM Unit :=
  modify fun r => { r with terminal := r.terminal ++ text }

/-- Does what the machine asks, in turn, up to a request that nothing can be done about.
The terminal is left alone unless the screen is to be shown. -/
def serve (render : Bool) : List Request → RunnerM (Option Halt)
  | [] => return none
  | .clearDisplay :: rest => do
      if render then print clearSequence
      serve render rest
  | .awaitKey :: _ => return some .awaitingKey

def showScreen : RunnerM Unit := do
  print (clearSequence ++ (← get).machine.screen.picture)

/-! ## Cycles -/

def jumpedToItself (m : Machine) (origin : UInt16) (outcome : Outcome) : Bool :=
  Opcode.family m.opcode == 0x1 && m.pc == origin && outcome == .executed

def ranAway : Outcome → Bool
  | .diagnosed (.counterOutside _) => true
  | _ => false

def runCycle (render : Bool) : RunnerM (Option Halt) := do
  let origin := (← get).machine.pc
  let outcome ← onMachine Machine.cycle
  countCycle
  if ranAway outcome then return some .counterOutside
  match ← serve render (← get).machine.outbox.requests with
  | some reason => return some reason
  | none =>
      let m := (← get).machine
      if render && m.drawn then showScreen
      return if jumpedToItself m origin outcome then some .finished else none

def runFor : Nat → RunnerM Halt
  | 0 => return .cycleLimit
  | count + 1 => do
      match ← runCycle false with
      | some reason => return reason
      | none => runFor count

def atLimit (r : Runner) : Bool :=
  match r.options.limit with
  | some limit => limit ≤ r.cycles
  | none => false

def turn : RunnerM (Option Halt) := do
  let r ← get
  if r.atLimit then return some .cycleLimit
  runCycle r.options.render

def turns : Nat → RunnerM Halt
  | 0 => throw .trap
  | count + 1 => do
      match ← turn with
      | some reason => return reason
      | none => turns count

def checkRate : RunnerM Unit := do
  if (← get).options.rate = 0 then
    throw (.error (.usage "cycle rate must be greater than zero"))

/-- Runs as configured until there is a reason to stop. Every turn counts a cycle, so
the turns last as long as the count of cycles can grow. -/
def run : RunnerM Halt := do
  checkRate
  turns (UInt64.size - (← get).cycles.toNat)

end Runner

end Chip8
