import Chip8.Main
import Chip8.Proofs.Cycle.Faults
import Chip8.Proofs.Host.Calls
import Chip8.Proofs.Runner.Turn
import Chip8.Proofs.Runner.FirstStop
import Chip8.Proofs.Runner.Pacing
import Chip8.Proofs.Runner.Terminal
import Chip8.Proofs.Runner.Stability
import Chip8.Proofs.Host.Randomness
import Chip8.Proofs.Runner.Incidentals
import Chip8.Proofs.Host.Loading
import Chip8.Proofs.Options.Reading
import Chip8.Proofs.CommandLine.Report
import Chip8.Proofs.Host.Stores
import Chip8.Proofs.Cycle.RepeatedDrawing
import Chip8.Proofs.Cycle.FlagOperations
import Chip8.Proofs.Cycle.ControlFlow
import Chip8.Proofs.Cycle.Timers
import Chip8.Proofs.Options.Grammar
import Chip8.Proofs.Options.FirstError
import Chip8.Proofs.Host.Signals
import Chip8.Proofs.Host.KeyWait
import Chip8.Proofs.Runner.UnknownWords
import Chip8.Proofs.Cycle.Transfers
import Chip8.Proofs.Host.KeyChanges
import Chip8.Proofs.Host.LoadAttempts
import Chip8.Proofs.Screen.Picture
import Chip8.Proofs.Host.Reset
import Chip8.Proofs.Instruction.IgnoredBits
import Chip8.Proofs.Numeral.Decimal
import Chip8.Proofs.Options.Numbers
import Chip8.Proofs.Random.Scaling
import Chip8.Outbox.Slots
import Chip8.Proofs.Outbox.Slots
import Chip8.Proofs.Error.Wording
