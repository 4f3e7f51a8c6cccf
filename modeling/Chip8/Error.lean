import Chip8.Numeral.Decimal
import Chip8.Numeral.Hex

/-!
# Errors

Everything that can go wrong while a program is loaded or run, and the text each cause
is reported with. Two of the causes are diagnoses, after which the machine goes on:
a program counter outside memory and an opcode that stands for no instruction. The
others stop the operation that met them.
-/

namespace Chip8

structure FileFault where
  reason : String
  code : Nat
  deriving DecidableEq, Repr

namespace FileFault

def notFound : FileFault where
  reason := "No such file or directory"
  code := 2

def notDirectory : FileFault where
  reason := "Not a directory"
  code := 20

def isDirectory : FileFault where
  reason := "Is a directory"
  code := 21

def nameTooLong : FileFault where
  reason := "File name too long"
  code := 36

def message (fault : FileFault) : String :=
  fault.reason ++ " (os error " ++ Numeral.Decimal.render fault.code ++ ")"

end FileFault

inductive Error where
  | counterOutside (pc : UInt16)
  | noInstruction (opcode : UInt16)
  /-- The last address of an access is outside memory. -/
  | addressOutside (address : Nat)
  /-- A lit sprite pixel is outside the screen. -/
  | pixelOutside (index : Nat)
  | stackFull (depth : Nat)
  | stackEmpty
  | noSuchKey (key : Nat)
  | outboxFull (capacity : Nat)
  | programTooLong (size limit : Nat)
  | usage (text : String)
  | file (fault : FileFault)
  deriving DecidableEq, Repr

def Error.message : Error → String
  | .counterOutside pc =>
      "program counter is out of memory bounds: " ++ Numeral.Hex.render 4 pc.toNat
  | .noInstruction opcode =>
      "unknown opcode: " ++ Numeral.Hex.render 4 opcode.toNat
  | .addressOutside address =>
      "memory access out of bounds at address " ++ Numeral.Hex.render 4 address
  | .pixelOutside index =>
      "framebuffer access out of bounds at index " ++ Numeral.Decimal.render index
  | .stackFull depth =>
      "stack overflow: call depth exceeds " ++ Numeral.Decimal.render depth ++ " entries"
  | .stackEmpty => "stack underflow: return with an empty call stack"
  | .noSuchKey key =>
      "key index " ++ Numeral.Hex.render 2 key ++ " is not a valid key"
  | .outboxFull capacity =>
      "command buffer is full (" ++ Numeral.Decimal.render capacity ++ " commands)"
  | .programTooLong size limit =>
      "program is too large (" ++ Numeral.Decimal.render size ++ " bytes), max size is "
        ++ Numeral.Decimal.render limit ++ " bytes"
  | .usage text => text
  | .file fault => fault.message

end Chip8
