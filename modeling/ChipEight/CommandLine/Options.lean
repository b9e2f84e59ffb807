import ChipEight.Text.Decimal
import ChipEight.Text.Numeral

/-!
# Options

The options of the command line and how the words of a command line are told apart. A word that
begins with a dash is an option, unless it looks like a negative number or has a blank in it. An
option may be shortened as long as it stays the only one that begins so, and may have its value
attached with an equals sign. To a single-letter option more letters are attached, which are options
themselves; an equals sign may stand before them. After a double dash all words are arguments.
-/

namespace ChipEight.CommandLine

open Text

/-- The options. -/
inductive Flag where
  | help
  | hz
  | scale
  | lenient
  | seed
  | shiftVy
  | noIndexWrap
  | trace
  | headless
  | frames
  | disassemble
  deriving Repr, DecidableEq

/-- The spellings of the options, in the order in which messages list them. -/
def spellings : List (String × Flag) :=
  [("-h", .help), ("--help", .help), ("--hz", .hz), ("--scale", .scale), ("--lenient", .lenient),
    ("--seed", .seed), ("--shift-vy", .shiftVy), ("--no-index-wrap", .noIndexWrap),
    ("--trace", .trace), ("--headless", .headless), ("--frames", .frames),
    ("--disassemble", .disassemble)]

/-- Whether an option needs a value. -/
def Flag.takesValue : Flag → Bool
  | .hz | .scale | .seed | .frames => true
  | _ => false

/-- An option as messages name it: all its spellings. -/
def Flag.name (flag : Flag) : String :=
  "/".intercalate ((spellings.filter (·.2 = flag)).map (·.1))

/-- What is wrong with a command line. -/
inductive UsageError where
  /-- There is no program. -/
  | missingProgram
  /-- Words that stand for nothing. -/
  | unrecognized (words : List String)
  /-- A shortened option that several options begin with. -/
  | ambiguous (word : String) (candidates : List String)
  /-- An option without its value. -/
  | missingValue (flag : Flag)
  /-- A value that is not an integer. -/
  | badInteger (flag : Flag) (text : String)
  /-- A value attached to an option that takes none. -/
  | ignoredValue (flag : Flag) (text : String)
  /-- A value that has to be positive and is not. -/
  | notPositive (flag : Flag) (value : Int)
  deriving Repr, DecidableEq

/-- A text in quotes. -/
def quotedText (text : String) : String := String.ofList (quoted text.toList)

/-- The text of a usage error. -/
def UsageError.message : UsageError → String
  | .missingProgram => "the following arguments are required: program"
  | .unrecognized words => "unrecognized arguments: " ++ " ".intercalate words
  | .ambiguous word candidates =>
    s!"ambiguous option: {word} could match " ++ ", ".intercalate candidates
  | .missingValue flag => s!"argument {flag.name}: expected one argument"
  | .badInteger flag text => s!"argument {flag.name}: invalid int value: " ++ quotedText text
  | .ignoredValue flag text =>
    s!"argument {flag.name}: ignored explicit argument " ++ quotedText text
  | .notPositive flag value => s!"{flag.name} must be a positive integer (got {value})"

/-! ## Words -/

/-- What is attached to an option. -/
inductive Attached where
  /-- Nothing. -/
  | none
  /-- A text after an equals sign. -/
  | value (text : String)
  /-- The letters that follow a single-letter option. -/
  | letters (text : String)
  deriving Repr, DecidableEq

/-- A word of a command line. -/
inductive Word where
  /-- An argument. -/
  | argument (text : String)
  /-- The double dash. -/
  | divider
  /-- An option and what is attached to it. -/
  | option (flag : Flag) (attached : Attached)
  /-- A word that looks like an option and is none. -/
  | unknown (text : String)
  deriving Repr, DecidableEq

/-- A run of decimal digits that is not empty. -/
def isDigits (cs : List Char) : Bool := !cs.isEmpty && cs.all isDecimal

/-- Whether a text is a number as they stand after a minus sign: digits, or any digits, a point and
digits. One line break may follow. -/
def isNumber (cs : List Char) : Bool :=
  let cs := if cs.getLast? = some '\n' then cs.dropLast else cs
  isDigits cs ||
    match cs.dropWhile isDecimal with
    | '.' :: fraction => isDigits fraction
    | _ => false

/-- Cut a text at its first equals sign. -/
def splitValue (cs : List Char) : List Char × Option (List Char) :=
  match cs.dropWhile (· ≠ '=') with
  | _ :: value => (cs.takeWhile (· ≠ '='), some value)
  | [] => (cs, none)

/-- What a value after an equals sign attaches. -/
def attachValue : Option (List Char) → Attached
  | some value => .value (String.ofList value)
  | none => .none

/-- What a text after an equals sign attaches to an option that is spelled out. -/
def attachTo (spelling value : List Char) : Attached :=
  if spelling.length = 2 ∧ value ≠ [] then .letters (String.ofList value)
  else .value (String.ofList value)

/-- The options that a word may be short for, with their spellings and what is attached. -/
def candidates (cs : List Char) : List (String × Flag × Attached) :=
  match cs with
  | '-' :: '-' :: _ =>
    let (start, value) := splitValue cs
    (spellings.filter fun entry => start.isPrefixOf entry.1.toList).map fun (spelling, flag) =>
      (spelling, flag, attachValue value)
  | '-' :: c :: letters =>
    spellings.filterMap fun (spelling, flag) =>
      if spelling.toList = ['-', c] then
        some (spelling, flag, Attached.letters (String.ofList letters))
      else if cs.isPrefixOf spelling.toList then some (spelling, flag, .none)
      else none
  | _ => []

/-- The option that a word spells out, with what follows an equals sign. -/
def exactOption? (cs : List Char) : Option (Flag × Attached) :=
  match spellings.lookup (String.ofList cs) with
  | some flag => some (flag, .none)
  | none =>
    match splitValue cs with
    | (start, some value) =>
      (spellings.lookup (String.ofList start)).map fun flag => (flag, attachTo start value)
    | (_, none) => none

/-- What a word is that begins with a dash and has more to it. -/
def readDashed (word : String) : Except UsageError Word :=
  let cs := word.toList
  match exactOption? cs with
  | some (flag, attached) => .ok (.option flag attached)
  | none =>
    match candidates cs with
    | [(_, flag, attached)] => .ok (.option flag attached)
    | [] =>
      if isNumber cs.tail then .ok (.argument word)
      else if cs.contains ' ' then .ok (.argument word)
      else .ok (.unknown word)
    | several => .error (.ambiguous word (several.map (·.1)))

/-- What a word is; the double dash is not among them. -/
def readWord (word : String) : Except UsageError Word :=
  match word.toList with
  | '-' :: _ :: _ => readDashed word
  | _ => .ok (.argument word)

/-- What the words of a command line are. -/
def readWords : List String → Except UsageError (List Word)
  | [] => .ok []
  | word :: rest =>
    if word = "--" then .ok (.divider :: rest.map .argument)
    else do
      let first ← readWord word
      let others ← readWords rest
      return first :: others

end ChipEight.CommandLine
