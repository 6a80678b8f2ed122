import Chip8.Text.Numeral
import Chip8.Text.Digit
import Chip8.Text.IntLiteral
import Chip8.Text.Printable
import Chip8.Text.Quoted
import Chip8.Cells
import Chip8.Platform
import Chip8.Memory
import Chip8.CallStack
import Chip8.Keypad
import Chip8.Screen
import Chip8.Instruction
import Chip8.Machine
import Chip8.Execution
import Chip8.StateDump
import Chip8.Random.Source
import Chip8.Random.Twister
import Chip8.Cpu
import Chip8.Seconds
import Chip8.Clock
import Chip8.Keymap
import Chip8.HostInput
import Chip8.Renderer
import Chip8.Session.Basic
import Chip8.Session.Run
import Chip8.RomStore
import Chip8.CommandLine.Basic
import Chip8.CommandLine.Token
import Chip8.CommandLine.Parse
import Chip8.CommandLine.Usage
import Chip8.Launch
import Chip8.Main
import Chip8.Proofs.Random.Masks
import Chip8.Proofs.Random.Stream
import Chip8.Proofs.Random.Acceptance
import Chip8.Proofs.Bytes
import Chip8.Proofs.Opcodes
import Chip8.Proofs.Stepping
import Chip8.Proofs.Plotting
import Chip8.Proofs.Sprites
import Chip8.Proofs.Refusals
import Chip8.Proofs.Reachable
import Chip8.Proofs.Bounds
import Chip8.Proofs.Halting
import Chip8.Proofs.Aftermath
import Chip8.Proofs.Footprints
import Chip8.Proofs.Calls
import Chip8.Proofs.Timeless
import Chip8.Proofs.Lockstep
import Chip8.Proofs.Repainting
import Chip8.Proofs.Alike
import Chip8.Proofs.PowerCycle
import Chip8.Proofs.Drawing
import Chip8.Proofs.EdgeModes
import Chip8.Proofs.SpriteLaw
import Chip8.Proofs.Redrawing
import Chip8.Proofs.Arithmetic
import Chip8.Proofs.Branching
import Chip8.Proofs.Session.Moves
import Chip8.Proofs.Session.Display
import Chip8.Proofs.Session.Steps
import Chip8.Proofs.Session.ClockIndependence
import Chip8.Proofs.Session.Accounts
import Chip8.Proofs.Session.Discipline
import Chip8.Proofs.Session.Latch
import Chip8.Proofs.Session.CatchUp
import Chip8.Proofs.WellFormed
import Chip8.Proofs.Session.Counters
import Chip8.Proofs.Release
import Chip8.Proofs.Session.Pacing
import Chip8.Proofs.Tracing
import Chip8.Proofs.Blocks
import Chip8.Proofs.Parity
import Chip8.Proofs.Waiting
import Chip8.Proofs.Literals
import Chip8.Proofs.Keymaps
import Chip8.Proofs.Latest
import Chip8.Proofs.KeyEvents
import Chip8.Proofs.Loading
import Chip8.Proofs.Numerals
import Chip8.Proofs.Dumps
import Chip8.Proofs.BoundedArray
import Chip8.Proofs.Zeroing
import Chip8.Proofs.CommandLine.Flags
import Chip8.Proofs.CommandLine.Entries
