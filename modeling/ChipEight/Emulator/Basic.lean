import ChipEight.Machine.Cycle

/-!
# The emulator

A machine together with how it is driven: how many cycles make up a frame, and what happens at a
word that stands for no instruction. A strict emulator is stopped by it. A lenient one notes the
word and its address and goes on after it.
-/

namespace ChipEight

/-- The state of an emulator. -/
structure Emulator where
  machine : Machine
  /-- Cycles per second. -/
  cpuRate : Nat
  /-- Ticks of the timers, and so frames, per second. -/
  timerRate : Nat
  /-- Whether a word that stands for no instruction stops the emulator. -/
  strict : Bool
  /-- The addresses and the words that were skipped, the oldest first. -/
  skipped : Array (Int × UInt16)
  /-- The number of frames so far. -/
  frames : Nat
  /-- The number of bytes of the program that was loaded last. -/
  programSize : Nat
  deriving Repr, DecidableEq

/-- Why an emulator could not be set up. -/
inductive SetupError where
  /-- One of the rates is not positive. -/
  | badRate
  deriving Repr, DecidableEq

/-- The text of a setup error. -/
def SetupError.message : SetupError → String
  | .badRate => "cpu_hz and timer_hz must be positive"

/-- What changes an emulator and may be stopped by a fault. -/
abbrev Emulator.Action := EStateM Fault Emulator

namespace Emulator

/-- An emulator with a fresh machine. -/
def create (cpuRate timerRate : Int) (strict : Bool) (random : Random.Source) (variant : Variant) :
    Except SetupError Emulator :=
  if cpuRate < 1 ∨ timerRate < 1 then .error .badRate
  else .ok {
    machine := Machine.fresh random variant
    cpuRate := cpuRate.toNat
    timerRate := timerRate.toNat
    strict
    skipped := #[]
    frames := 0
    programSize := 0 }

/-- How many cycles make up a frame: at least one. -/
def cyclesPerFrame (e : Emulator) : Nat := max 1 (e.cpuRate / e.timerRate)

/-- Put a program into the machine. -/
def loadProgram (e : Emulator) (program : List UInt8) (base : Int) : Except LoadError Emulator := do
  let machine ← e.machine.loadProgram program base
  return { e with machine, programSize := program.length }

/-- Put the program of a file into the machine; `contents` is what reading the file gave. -/
def loadFile (e : Emulator) (path : String) (contents : Except FileProblem (List UInt8)) :
    Except LoadError Emulator :=
  if path.contains '\x00' then .error .nullInPath
  else
    match contents with
    | .ok program => e.loadProgram program programBase
    | .error problem => .error (.unreadable path problem)

/-- An action on the machine. -/
def onMachine {α : Type} (action : Machine.Action α) : Action α := fun e =>
  match action e.machine with
  | .ok a machine => .ok a { e with machine }
  | .error fault machine => .error fault { e with machine }

/-- One tick of the timers. -/
def tick (e : Emulator) : Emulator := { e with machine := e.machine.tick }

/-- Note a skipped word and go on after it. The note stays even if there is nothing after it. -/
def skipWord (pc : Int) (word : UInt16) : Action Unit := do
  modify fun e => { e with skipped := e.skipped.push (pc, word) }
  onMachine Machine.skipWord

/-- One cycle, with the policy for words that stand for no instruction. A skipped word counts as no
instruction. -/
def step : Action (Option Instruction) := fun e =>
  match onMachine Machine.cycle e with
  | .error (.invalidOpcode pc word) e =>
    if e.strict then .error (.invalidOpcode pc word) e
    else (do skipWord pc word; return none : Action (Option Instruction)) e
  | result => result

/-- A number of steps. It gives the number of instructions that were executed, added to
`executed`. -/
def steps : Nat → Nat → Action Nat
  | 0, executed => return executed
  | count + 1, executed => do
    let instruction ← step
    steps count (executed + if instruction.isSome then 1 else 0)

/-- One frame: its cycles and then one tick. It gives the number of executed instructions. -/
def runFrame : Action Nat := do
  let executed ← steps (← get).cyclesPerFrame 0
  modify fun e => { e.tick with frames := e.frames + 1 }
  return executed

end Emulator

end ChipEight
