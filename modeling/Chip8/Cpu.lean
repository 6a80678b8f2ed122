import Chip8.Execution
import Chip8.Random.Source
import Chip8.StateDump

/-!
# Chip8.Cpu — one instruction after another

A processor steps its machine: it fetches an opcode, moves the program counter past it, and
carries it out.  Whatever refuses the instruction halts the processor; the halt is recorded with a
report of the state, and until a reset every further step is refused.  With tracing on, each step
that gets past the fetch hands out a line that shows the state before the instruction.
-/

namespace Chip8

open Platform

/-- A recorded halt: the fault, the opcode and the address of the instruction, and the report. -/
structure Halt where
  fault : Fault
  opcode : Int
  address : Int
  report : String
  deriving DecidableEq

/-- How a step, or the execution of a single opcode, can fail. -/
inductive CpuError where
  /-- The fault itself, unrecorded. -/
  | bare (fault : Fault)
  /-- The processor has halted just now. -/
  | halted (halt : Halt)
  /-- The processor had halted before. -/
  | refused (halt : Halt)
  deriving DecidableEq

namespace Fault

/-- The wording of a fault of a part of the machine; empty for the others, whose wording needs the
opcode and its address. -/
def message : Fault → String
  | memory fault => fault.message
  | stack fault => fault.message
  | keypad fault => fault.message
  | screen fault => fault.message
  | register fault => fault.message
  | unknownOpcode | noGlyph _ => ""

/-- Why the processor halts, for an instruction at `address`. -/
def reason (fault : Fault) (opcode address : Int) : String :=
  match fault with
  | unknownOpcode =>
    "Opcode 0x" ++ Numeral.hex 4 opcode ++ " at address 0x" ++ Numeral.hex 3 address ++
      " is not a CHIP-8 instruction."
  | noGlyph digit =>
    "Font digit 0x" ++ Numeral.hex 2 digit.toNat ++ " requested at address 0x" ++
      Numeral.hex 3 address ++ " is outside 0x0-0xf."
  | fault =>
    fault.message ++ " (instruction at address 0x" ++ Numeral.hex 3 address ++ ")."

/-- The faults of an opcode as such, which halt the processor wherever it is carried out. -/
def isOfOpcode : Fault → Bool
  | unknownOpcode | noGlyph _ => true
  | _ => false

/-- The faults that halt a stepping processor: all but a delay timer that is no byte. -/
def halts : Fault → Bool
  | register _ => false
  | _ => true

end Fault

namespace Halt

/-- Why the processor halted. -/
def reason (h : Halt) : String := h.fault.reason h.opcode h.address

end Halt

namespace CpuError

/-- The text of a failure. -/
def message : CpuError → String
  | bare fault => fault.message
  | halted halt => halt.report
  | refused halt =>
    "CPU is halted (" ++ halt.reason ++ ").  Reset it before stepping again."

end CpuError

/-- A processor with its machine and its source of random bytes. -/
structure Cpu (ρ : Type) where
  machine : Machine
  source : ρ
  /-- Whether every step hands out a line. -/
  traced : Bool
  /-- The address of the current instruction. -/
  address : Int
  halt : Option Halt

/-- What a step leaves behind: the processor, the line it traced, and its failure. -/
structure Step (ρ : Type) where
  cpu : Cpu ρ
  line : Option String
  error : Option CpuError

namespace Cpu

variable {ρ : Type}

/-- A processor for a machine; whether it traces is settled here. -/
def create (machine : Machine) (source : ρ) (traced : Bool) : Cpu ρ :=
  ⟨machine, source, traced, machine.pc, none⟩

/-- Resets the machine and forgets a halt.  The source of random bytes goes on. -/
def reset (c : Cpu ρ) : Cpu ρ :=
  let machine := c.machine.reset
  { c with machine, address := machine.pc, halt := none }

/-- One step down of both timers. -/
def tick (c : Cpu ρ) : Cpu ρ := { c with machine := c.machine.tick }

/-- Loads a program. -/
def load (c : Cpu ρ) (program : List UInt8) : Except LoadFault (Cpu ρ) :=
  match c.machine.load program with
  | .error fault => .error fault
  | .ok machine => .ok { c with machine }

/-- The state on one line. -/
def dump (c : Cpu ρ) : String := StateDump.line c.machine c.address

/-- The state on three lines. -/
def fullDump (c : Cpu ρ) : String := StateDump.full c.machine c.address

/-! ## Halting -/

/-- The report of a halt. -/
def report (c : Cpu ρ) (reason : String) : String :=
  "Emulation halted.\n\n" ++ appIntro ++ "Debug info:\n" ++ c.fullDump ++ "\n\n" ++ reason

/-- The halt that a fault brings about. -/
def haltFor (c : Cpu ρ) (fault : Fault) : Halt where
  fault := fault
  opcode := c.machine.opcode
  address := c.address
  report := c.report (fault.reason c.machine.opcode c.address)

/-- Records a halt. -/
def stop (c : Cpu ρ) (fault : Fault) : Cpu ρ := { c with halt := some (c.haltFor fault) }

/-! ## Executing -/

variable [ByteSource ρ]

/-- Carries out the current opcode.  A random byte is drawn only for an instruction that takes
one. -/
def execute (c : Cpu ρ) : Cpu ρ × Option Fault :=
  match Instruction.decode c.machine.opcode with
  | none => (c, some .unknownOpcode)
  | some i =>
    let drawn : UInt8 × ρ := if i.isRandom then ByteSource.next c.source else (0, c.source)
    let r := i.execute drawn.1 c.machine
    ({ c with machine := r.1, source := drawn.2 }, r.2)

/-- Carries out an opcode that is not fetched.  Only a fault of the opcode as such is recorded. -/
def executeOpcode (c : Cpu ρ) (opcode : Int) : Cpu ρ × Option CpuError :=
  match { c with machine := { c.machine with opcode } }.execute with
  | (c, none) => (c, none)
  | (c, some fault) =>
    if fault.isOfOpcode then (c.stop fault, some (.halted (c.haltFor fault)))
    else (c, some (.bare fault))

/-! ## Stepping -/

/-- The processor with the opcode that was fetched, past the instruction. -/
def enter (c : Cpu ρ) (opcode : Int) : Cpu ρ :=
  { c with machine := { c.machine with opcode, pc := c.machine.pc + 2 } }

/-- The end of a step that failed; `line` has been traced by then. -/
def failStep (c : Cpu ρ) (line : Option String) (fault : Fault) : Step ρ :=
  if fault.halts then ⟨c.stop fault, line, some (.halted (c.haltFor fault))⟩
  else ⟨c, line, some (.bare fault)⟩

/-- One instruction. -/
def step (c : Cpu ρ) : Step ρ :=
  match c.halt with
  | some halt => ⟨c, none, some (.refused halt)⟩
  | none =>
    let c := { c with address := c.machine.pc }
    match c.machine.fetch with
    | .error fault => c.failStep none (.memory fault)
    | .ok opcode =>
      let c := c.enter opcode
      let line := if c.traced then some c.dump else none
      match c.execute with
      | (c, none) => ⟨c, line, none⟩
      | (c, some fault) => c.failStep line fault

end Cpu

end Chip8
