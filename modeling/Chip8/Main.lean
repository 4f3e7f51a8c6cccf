import Chip8.CommandLine

/-!
# The program

Runs a program file in the terminal, at the rate that the arguments ask for. What
to print and when to stop is decided by the runner; reading the file, printing and
waiting is done here.
-/

namespace Chip8.CommandLine

/-- The error number of the operating system, which some calls report negated. -/
def errorNumber (code : UInt32) : Nat :=
  if code.toNat < 2147483648 then code.toNat else (0 - code).toNat

def faultOf : IO.Error → FileFault
  | .noFileOrDirectory _ _ _ => .notFound
  | .inappropriateType _ code _ =>
      if errorNumber code = FileFault.notDirectory.code then .notDirectory else .isDirectory
  | .invalidArgument _ code _ =>
      if errorNumber code = FileFault.nameTooLong.code then .nameTooLong
      else { reason := "Invalid argument", code := errorNumber code }
  | .permissionDenied _ code _ => { reason := "Permission denied", code := errorNumber code }
  | failure => { reason := failure.toString, code := 5 }

def readFile (path : String) : IO (Except FileFault (List UInt8)) := do
  try
    let content ← IO.FS.readBinFile path
    return .ok content.toList
  catch failure =>
    return .error (faultOf failure)

def drain (r : Runner) : IO Runner := do
  IO.print r.terminal
  (← IO.getStdout).flush
  return { r with terminal := "" }

def waitFor (rate : UInt32) (started : Nat) : IO Unit := do
  let duration := 1000000000 / rate.toNat
  let elapsed := (← IO.monoNanosNow) - started
  if elapsed < duration then
    IO.sleep (UInt32.ofNat ((duration - elapsed) / 1000000))

partial def pace (r : Runner) : IO (EStateM.Result Failure Runner Halt) := do
  let started ← IO.monoNanosNow
  match Runner.turn r with
  | .ok none r =>
      let r ← drain r
      waitFor r.options.rate started
      pace r
  | .ok (some reason) r => return .ok reason r
  | .error failure r => return .error failure r

def publish (report : Report) : IO UInt32 := do
  IO.print report.output
  IO.eprint report.errors
  return report.code.toUInt32

def present (options : Options) : IO UInt32 := do
  let content ← readFile options.program
  let prepare : RunnerM Unit := do
    let _ ← Runner.onMachine (Machine.loadFile content)
    Runner.checkRate
  match prepare { options } with
  | .ok () r => publish (conclusion (← pace r))
  | .error failure r => publish (conclusion (.error failure r))

end Chip8.CommandLine

def main (args : List String) : IO UInt32 :=
  match Chip8.Options.parse args with
  | .error cause => Chip8.CommandLine.publish (Chip8.CommandLine.refusal cause)
  | .ok options => Chip8.CommandLine.present options
