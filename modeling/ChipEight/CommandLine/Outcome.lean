import ChipEight.Assembly.Disassembly
import ChipEight.CommandLine.Breakdown
import ChipEight.CommandLine.Usage
import ChipEight.Display.Recorder
import ChipEight.Emulator.Report

/-!
# Outcomes

What the command does, as a value: its exit status and what it prints. The file of the program and
the source of random bytes come from outside, so everything else is a function of the command line.
-/

namespace ChipEight.CommandLine

/-- What a command leaves behind. -/
structure Outcome where
  /-- The exit status. -/
  exit : UInt8 := 0
  /-- What is printed as output. -/
  out : String := ""
  /-- What is printed as messages. -/
  messages : String := ""
  deriving Repr, DecidableEq

/-- The number of frames of a run without a window if none is given. -/
def headlessFrames : Int := 600

/-- The number of frames per second. -/
def frameRate : Int := 60

/-- A line. -/
def line (text : String) : String := text ++ "\n"

/-- The outcome of a wrong command line. -/
def UsageError.outcome (e : UsageError) : Outcome := { exit := 2, messages := e.report }

/-- The outcome of a program that cannot be loaded. -/
def loadFailure (e : LoadError) : Outcome :=
  { exit := 1, messages := line ("[chip8] load error: " ++ e.message) }

/-! ## Disassembly -/

/-- A line of a disassembly as it is printed. -/
def disassemblyLine (l : Assembly.DisassembledLine) : String :=
  line ("  " ++ shortAddressLayout.render l.address ++ "  " ++
    shortWordLayout.render l.word.toNat ++ "  " ++ l.text)

/-- The disassembly of the loaded program. -/
def disassembly (e : Emulator) : Outcome :=
  match e.machine.memory.readBlock programBase e.programSize with
  | .ok image =>
    { out := String.join ((Assembly.disassemble programBase image).map disassemblyLine) }
  | .error fault => { exit := 1, messages := line ("[chip8] fatal: " ++ fault.message) }

/-! ## Runs -/

/-- The trace as it is printed. -/
def traceLines (m : Machine) : String :=
  String.join (m.trace.toList.map fun entry => line ("[trace] " ++ entry.text))

/-- What is printed after a run without a window. -/
def summary (e : Emulator) (frames : Nat) : String :=
  line s!"[chip8] {frames} frames, {e.machine.executed} instructions" ++
    if e.skipped.isEmpty then ""
    else line s!"[chip8] skipped {e.skipped.size} invalid opcode(s)"

/-- The outcome of a session that is run. -/
def runOutcome {δ : Type} [Display δ] (headless : Bool) (limit : Option Int)
    (session : Session δ) : Outcome :=
  match Session.run limit session with
  | .ok frames session =>
    let e := session.emulator
    { out := if headless then summary e frames else "", messages := traceLines e.machine }
  | .error fault session =>
    let e := session.emulator
    { exit := 1
      messages := traceLines e.machine ++ line ("[chip8] fatal: " ++ fault.message) ++
        line e.report }

/-- Run the loaded program without a window, or with one in which cells have the size `scale`. The
window is opened before the number of frames is looked at. -/
def runProgram (s : Settings) (scale : Int) (e : Emulator) : Except Breakdown Outcome := do
  let e := { e with machine := { e.machine with tracing := s.trace } }
  if s.headless then
    let frames ← (s.frames.getD (.number headlessFrames)).forFlag .frames
    return runOutcome true (some frames) (Session.mk e ({} : Recorder))
  else
    let window ← (Window.create scale).mapError .noWindow
    let frames ← s.frames.mapM (Amount.forFlag .frames)
    return runOutcome false frames (Session.mk e window)

/-- Run or disassemble a program, given what reading its file gave. `random` is the source of random
bytes if there is no seed. -/
def perform (program : String) (s : Settings) (contents : Except FileProblem (List UInt8))
    (random : Random.Source) : Except Breakdown Outcome := do
  let hz ← s.hz.forFlag .hz
  if hz < 1 then return (UsageError.notPositive .hz hz).outcome
  let scale ← s.scale.forFlag .scale
  if scale < 1 then return (UsageError.notPositive .scale scale).outcome
  let seed ← s.seed.mapM (Amount.forFlag .seed)
  let random := (seed.map Random.Source.ofSeed).getD random
  match Emulator.create hz frameRate (!s.lenient) random ⟨s.shiftVy, !s.noIndexWrap⟩ with
  | .error e => return { exit := 1, messages := line e.message }
  | .ok e =>
    match e.loadFile program contents with
    | .error .nullInPath => throw .nullInPath
    | .error e => return loadFailure e
    | .ok e => if s.disassemble then return disassembly e else runProgram s scale e

/-- Carry out a command line. `read` gives the contents of the file at a path, and `random` is the
source of random bytes if no seed is given. -/
def carryOut (words : List String) (read : String → Except FileProblem (List UInt8))
    (random : Random.Source) : Except Breakdown Outcome :=
  match parse words with
  | .error e => .ok e.outcome
  | .ok .help => .ok { out := helpText }
  | .ok (.run program s) => perform program s (read program) random

end ChipEight.CommandLine
