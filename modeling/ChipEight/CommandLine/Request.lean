import ChipEight.CommandLine.Options

/-!
# Requests

What a command line asks for: the help text, or to run a program with some settings. The words are
gone through from left to right. The first argument is the program; what stands for nothing is
collected and reported at the end, and the first option that is wrong at once.
-/

namespace ChipEight.CommandLine

open Text

/-- What an option that takes a number was given. -/
inductive Amount where
  /-- A number. -/
  | number (value : Int)
  /-- Nothing: a double dash stands in the place of the number. -/
  | blank
  deriving Repr, DecidableEq

/-- The settings of a command line. -/
structure Settings where
  hz : Amount := .number 600
  scale : Amount := .number 10
  lenient : Bool := false
  seed : Option Amount := none
  shiftVy : Bool := false
  noIndexWrap : Bool := false
  trace : Bool := false
  headless : Bool := false
  frames : Option Amount := none
  disassemble : Bool := false
  deriving Repr, DecidableEq

/-- What a command line asks for. -/
inductive Request where
  /-- The help text. -/
  | help
  /-- To run a program. -/
  | run (program : String) (settings : Settings)
  deriving Repr, DecidableEq

/-- What was found in the words so far. -/
structure Found where
  settings : Settings := {}
  program : Option String := none
  /-- The words that stand for nothing, in their order. -/
  extras : List String := []
  deriving Repr, DecidableEq

namespace Found

/-- Collect a word that stands for nothing. -/
def extra (f : Found) (word : String) : Found := { f with extras := f.extras ++ [word] }

/-- Turn an option on. -/
def switchOn (f : Found) (flag : Flag) : Found :=
  let s := f.settings
  match flag with
  | .lenient => { f with settings := { s with lenient := true } }
  | .shiftVy => { f with settings := { s with shiftVy := true } }
  | .noIndexWrap => { f with settings := { s with noIndexWrap := true } }
  | .trace => { f with settings := { s with trace := true } }
  | .headless => { f with settings := { s with headless := true } }
  | .disassemble => { f with settings := { s with disassemble := true } }
  | _ => f

/-- Give an option its value. -/
def setAmount (f : Found) (flag : Flag) (value : Amount) : Found :=
  let s := f.settings
  match flag with
  | .hz => { f with settings := { s with hz := value } }
  | .scale => { f with settings := { s with scale := value } }
  | .seed => { f with settings := { s with seed := some value } }
  | .frames => { f with settings := { s with frames := some value } }
  | _ => f

/-- Give an option the value that a text spells. -/
def setText (f : Found) (flag : Flag) (text : String) : Except UsageError Found :=
  if text = "--" then .ok (f.setAmount flag .blank)
  else
    match readInt .decimal text.toList with
    | .ok value => .ok (f.setAmount flag (.number value))
    | .error _ => .error (.badInteger flag text)

end Found

/-- Whether the letters after the option for help all ask for help once more. The first one that
does not begins a value, and help takes none. -/
def checkHelpLetters : List Char → Except UsageError Unit
  | [] => .ok ()
  | 'h' :: letters => checkHelpLetters letters
  | value => .error (.ignoredValue .help (String.ofList value))

/-- Go through words. There is no result if the help text was asked for. -/
def findIn (f : Found) : List Word → Except UsageError (Option Found)
  | [] => .ok (some f)
  | .unknown text :: rest => findIn (f.extra text) rest
  | .argument text :: .divider :: rest =>
    match f.program with
    | none => findIn { f with program := some text } rest
    | some _ => findIn ((f.extra text).extra "--") rest
  | .argument text :: rest =>
    match f.program with
    | none => findIn { f with program := some text } rest
    | some _ => findIn (f.extra text) rest
  | .divider :: .argument text :: rest =>
    match f.program with
    | none => findIn { f with program := some text } rest
    | some _ => findIn ((f.extra "--").extra text) rest
  | .divider :: rest => findIn (f.extra "--") rest
  | .option flag (.value text) :: rest =>
    if flag.takesValue then do
      let f ← f.setText flag text
      findIn f rest
    else .error (.ignoredValue flag text)
  | .option flag (.letters text) :: rest =>
    if flag = .help then do
      checkHelpLetters text.toList
      return none
    else findIn f rest
  | .option flag .none :: rest =>
    if flag = .help then .ok none
    else if flag.takesValue then
      match rest with
      | .argument text :: rest => do
        let f ← f.setText flag text
        findIn f rest
      | _ => .error (.missingValue flag)
    else findIn (f.switchOn flag) rest

/-- What a command line asks for. -/
def parse (words : List String) : Except UsageError Request := do
  match ← findIn {} (← readWords words) with
  | none => return .help
  | some f =>
    match f.program, f.extras with
    | none, _ => throw .missingProgram
    | some program, [] => return .run program f.settings
    | some _, extras => throw (.unrecognized extras)

end ChipEight.CommandLine
