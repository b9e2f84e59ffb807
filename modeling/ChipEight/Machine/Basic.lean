import ChipEight.Framebuffer
import ChipEight.Instruction.Text
import ChipEight.Keypad
import ChipEight.Memory.Font
import ChipEight.Random.Source
import ChipEight.Registers
import ChipEight.Timers

/-!
# The machine

The state of a machine: memory, registers, timers, keypad and screen, where its random bytes come
from, the switches for the variants of the instruction set, and what it keeps about its own run. A
machine that waits for a key remembers the register that will get the key's code.
-/

namespace ChipEight

/-- The switches between variants of the instruction set. -/
structure Variant where
  /-- Shifts take their operand from `Vy` and not from `Vx`. -/
  shiftVy : Bool := false
  /-- Adding to the index register wraps at twelve bits and not at sixteen. -/
  indexWrap : Bool := true
  deriving Repr, DecidableEq

/-- What is recorded about one executed instruction. -/
structure TraceEntry where
  /-- Where the instruction stood. -/
  pc : Int
  /-- The word there. -/
  word : UInt16
  instruction : Instruction
  /-- The program counter afterwards. -/
  next : Int
  deriving Repr, DecidableEq

/-- The state of a machine. -/
structure Machine where
  memory : Memory
  registers : Registers
  timers : Timers
  keypad : Keypad
  screen : Framebuffer
  random : Random.Source
  variant : Variant
  /-- Whether the machine waits for a key. -/
  waiting : Bool
  /-- The register of the latest wait. -/
  waitTarget : Register
  /-- The number of executed instructions. -/
  executed : Nat
  /-- The latest executed instruction. -/
  last : Option Instruction
  /-- Whether executed instructions are recorded. -/
  tracing : Bool
  /-- The recorded instructions, the oldest first. -/
  trace : Array TraceEntry
  deriving Repr, DecidableEq

namespace Machine

/-- A machine that was just switched on. -/
def fresh (random : Random.Source) (variant : Variant) : Machine where
  memory := (Memory.blank memorySize).loadFont
  registers := {}
  timers := {}
  keypad := {}
  screen := Framebuffer.blank screenWidth screenHeight
  random
  variant
  waiting := false
  waitTarget := firstRegister
  executed := 0
  last := none
  tracing := false
  trace := #[]

/-- Put the font back in its place. -/
def loadFont (m : Machine) : Machine := { m with memory := m.memory.loadFont }

/-- Put a program into memory. -/
def loadProgram (m : Machine) (program : List UInt8) (base : Int) : Except LoadError Machine := do
  let memory ← m.memory.loadProgram program base
  return { m with memory }

/-- One tick of the timers. -/
def tick (m : Machine) : Machine := { m with timers := m.timers.tick }

/-- The key with a code goes down. -/
def keyDown (m : Machine) (code : Int) : Except Fault Machine := do
  let key ← Key.ofCode code
  return { m with keypad := m.keypad.press key }

/-- The key with a code goes up. -/
def keyUp (m : Machine) (code : Int) : Except Fault Machine := do
  let key ← Key.ofCode code
  return { m with keypad := m.keypad.release key }

/-- Count an executed instruction, and record it if the machine is tracing. -/
def record (m : Machine) (entry : TraceEntry) : Machine :=
  { m with
    executed := m.executed + 1
    last := some entry.instruction
    trace := if m.tracing then m.trace.push entry else m.trace }

end Machine

end ChipEight
