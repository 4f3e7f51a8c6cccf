import Chip8.Error

/-!
# Options

What a run is configured with, and how that is read from the arguments of the command
line: a program file and, in any order around it, a rate, a limit on the cycles, and
whether to show the screen. Arguments are read from left to right and the first that
makes no sense is reported.
-/

namespace Chip8

/-- How often the timers of a machine are meant to count, in a second. They count once
in a cycle, so this is the rate of cycles unless another one is asked for. -/
def timerRate : UInt32 := 60

structure Options where
  program : String
  rate : UInt32 := timerRate
  limit : Option UInt64 := none
  render : Bool := true
  deriving DecidableEq, Repr

namespace Options

structure Draft where
  program : Option String := none
  rate : UInt32 := timerRate
  limit : Option UInt64 := none
  render : Bool := true
  deriving DecidableEq, Repr

def readNumber (width : Nat) (flag value : String) : Except Error Nat :=
  match Numeral.Decimal.readBits? width value with
  | some n => .ok n
  | none => .error (.usage ("invalid value '" ++ value ++ "' for " ++ flag))

def Draft.setRate (draft : Draft) (value : String) : Except Error Draft := do
  let rate ← readNumber 32 "--hz" value
  if rate = 0 then throw (.usage "--hz must be greater than zero")
  return { draft with rate := UInt32.ofNat rate }

def Draft.setLimit (draft : Draft) (value : String) : Except Error Draft := do
  let limit ← readNumber 64 "--cycles" value
  return { draft with limit := some (UInt64.ofNat limit) }

def Draft.take (draft : Draft) (arg : String) : Except Error Draft :=
  if arg = "--no-render" then .ok { draft with render := false }
  else if arg.toList.head? = some '-' then .error (.usage ("unknown option '" ++ arg ++ "'"))
  else if draft.program.isSome then .error (.usage ("unexpected argument '" ++ arg ++ "'"))
  else .ok { draft with program := some arg }

def Draft.finish (draft : Draft) : Except Error Options :=
  match draft.program with
  | none => .error (.usage "missing ROM path")
  | some program =>
      .ok { program, rate := draft.rate, limit := draft.limit, render := draft.render }

/-- Reads the remaining arguments. The argument behind an option that has a value is
that value, whatever it looks like. -/
def Draft.read (draft : Draft) : List String → Except Error Options
  | [] => draft.finish
  | arg :: rest =>
      if arg = "--hz" ∨ arg = "--cycles" then
        match rest with
        | [] => .error (.usage (arg ++ " needs a value"))
        | value :: rest => do
            let draft ← if arg = "--hz" then draft.setRate value else draft.setLimit value
            draft.read rest
      else do
        let draft ← draft.take arg
        draft.read rest

def parse (args : List String) : Except Error Options :=
  Draft.read {} args

end Options

end Chip8
