import Chip8.Runner

/-!
# The command line

What a whole invocation answers: an exit code and two texts. Arguments that make no sense
end it with code 2, a program that cannot be read or fails with code 1, a trap with code
101, and everything else with code 0. What was shown before a failure stays in the output.
-/

namespace Chip8.CommandLine

structure Report where
  code : UInt8
  output : String
  errors : String
  deriving DecidableEq, Repr

def usage : String := "Usage: chip8vm <rom> [--hz N] [--cycles N] [--no-render]"

def refusal (cause : Error) : Report where
  code := 2
  output := ""
  errors := cause.message ++ "\n" ++ usage ++ "\n"

def farewell (reason : Halt) (cycles : UInt64) : String :=
  match reason with
  | .awaitingKey => "Program is waiting for a key; this runner has no keyboard. Exiting."
  | reason =>
      "Program stopped (" ++ reason.label ++ ") after " ++ Numeral.Decimal.render cycles.toNat
        ++ " cycles."

def conclusion : EStateM.Result Failure Runner Halt → Report
  | .ok reason r =>
      { code := 0, output := r.terminal ++ "\n" ++ farewell reason r.cycles ++ "\n", errors := "" }
  | .error (.error cause) r =>
      { code := 1, output := r.terminal, errors := "\nExecution error: " ++ cause.message ++ "\n" }
  | .error .trap r =>
      { code := 101, output := r.terminal, errors := "\nAccess or sum without a value\n" }

def loadAndRun (content : Except FileFault (List UInt8)) : RunnerM Halt := do
  let _ ← Runner.onMachine (Machine.loadFile content)
  Runner.run

/-- The report on an invocation, where `files` is what reading the file of a path gives. -/
def invoke (files : String → Except FileFault (List UInt8)) (args : List String) : Report :=
  match Options.parse args with
  | .error cause => refusal cause
  | .ok options => conclusion (loadAndRun (files options.program) { options })

end Chip8.CommandLine
