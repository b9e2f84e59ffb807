import ChipEight.Text.Blank
import ChipEight.Text.Decimal
import ChipEight.Text.Quoted

/-!
# Integers as text

Reading an integer. Around it there may be blanks and before it one sign. Then come its digits, with
single underscores between them, after a marker such as `0x` where the radix allows one. Decimal
digits of every script are read as the plain ones. Where the radix is left to the text, the marker
decides it; without a marker the number is decimal, and only zero may begin with a zero.

Reading and writing in base ten take long for long integers, so both stop at a number of digits. The
other bases are read at any length.
-/

namespace ChipEight.Text

/-- In which base the digits of an integer are read. -/
inductive Radix where
  /-- Base ten. -/
  | decimal
  /-- Base sixteen; the marker `0x` may be there or not. -/
  | hexadecimal
  /-- As the marker says, base ten without one. -/
  | marked
  deriving Repr, DecidableEq

/-- The number by which messages call a radix. -/
def Radix.number : Radix → Nat
  | .decimal => 10
  | .hexadecimal => 16
  | .marked => 0

/-- A character as the reader sees it: blanks and digits of all scripts become plain ones. -/
def plainChar (c : Char) : Char :=
  if c.toNat < 128 then c
  else if isBlank c then ' '
  else
    match decimalValue? c with
    | some d => Nat.digitChar d
    | none => '?'

/-- The blanks that the reader allows around an integer. -/
def isSpacing (c : Char) : Bool := c == ' ' || ('\t' ≤ c && c ≤ '\r')

/-- The value of a digit in a base of at most thirty-six. -/
def digitValue? (base : Nat) (c : Char) : Option Nat :=
  let value? :=
    if c.isDigit then some (c.toNat - '0'.toNat)
    else if c.isLower then some (c.toNat - 'a'.toNat + 10)
    else if c.isUpper then some (c.toNat - 'A'.toNat + 10)
    else none
  value?.filter (· < base)

/-- Read the rest of a run of digits after those that made `value`. If a digit is due, the run may
neither end nor go on with an underscore. -/
def readDigits (base : Nat) (value : Nat) (due : Bool) : List Char → Option Nat
  | [] => if due then none else some value
  | c :: rest =>
    if c = '_' then
      if due then none else readDigits base value true rest
    else
      match digitValue? base c with
      | none => none
      | some d => readDigits base (value * base + d) false rest

/-- Read the digits that follow a marker, with or without an underscore between. -/
def readMarked (base : Nat) : List Char → Option Nat
  | '_' :: rest => readDigits base 0 true rest
  | cs => readDigits base 0 true cs

/-! ## The limit on decimal digits -/

/-- The most digits that an integer in base ten may have. -/
def maxDecimalDigits : Nat := 4300

/-- The least natural number that has more digits. -/
def decimalLimit : Nat := Nat.pow 10 maxDecimalDigits

/-- Whether an integer can be written in base ten. -/
def isWritable (value : Int) : Bool := value.natAbs < decimalLimit

/-- The beginning of messages about integers with too many digits. -/
def digitLimitText : String :=
  s!"Exceeds the limit ({maxDecimalDigits} digits) for integer string conversion"

/-- The end of messages about integers with too many digits. -/
def digitLimitAdvice : String := "; use sys.set_int_max_str_digits() to increase the limit"

/-- The message about an integer that cannot be written. -/
def unwritableText : String := digitLimitText ++ digitLimitAdvice

/-- Whether the underscores in a run of digits are single and between digits. `due` tells that the
run may not go on with one. -/
def isSpaced (due : Bool) : List Char → Bool
  | [] => !due
  | c :: rest => if c = '_' then !due && isSpaced true rest else isSpaced false rest

/-- How many decimal digits a text begins with, if they are more than are read. -/
def excessDigits? (cs : List Char) : Option Nat :=
  let run := cs.takeWhile fun c => c.isDigit || c == '_'
  let digits := run.countP Char.isDigit
  if isSpaced true run && maxDecimalDigits < digits then some digits else none

/-! ## Integers -/

/-- Why a text is not read as an integer. -/
inductive NumeralError where
  /-- The text is not written as an integer. -/
  | malformed
  /-- There are more decimal digits than are read. -/
  | tooLong (digits : Nat)
  deriving Repr, DecidableEq

/-- What was read, or that nothing could be. -/
def orMalformed : Option Nat → Except NumeralError Nat
  | some value => .ok value
  | none => .error .malformed

/-- Read digits in base ten. Too many of them are refused even if something else follows them. -/
def readDecimal (cs : List Char) : Except NumeralError Nat :=
  match excessDigits? cs with
  | some digits => .error (.tooLong digits)
  | none => orMalformed (readDigits 10 0 true cs)

/-- Read digits in base ten of which the first is a zero: their value can only be zero. -/
def readZero (cs : List Char) : Except NumeralError Nat :=
  match readDecimal cs with
  | .ok 0 => .ok 0
  | .ok _ => .error .malformed
  | .error e => .error e

/-- Read an integer without its sign. -/
def readMagnitude (radix : Radix) (cs : List Char) : Except NumeralError Nat :=
  match radix, cs with
  | .decimal, _ => readDecimal cs
  | .hexadecimal, '0' :: 'x' :: rest | .hexadecimal, '0' :: 'X' :: rest =>
    orMalformed (readMarked 16 rest)
  | .hexadecimal, _ => orMalformed (readDigits 16 0 true cs)
  | .marked, '0' :: 'x' :: rest | .marked, '0' :: 'X' :: rest => orMalformed (readMarked 16 rest)
  | .marked, '0' :: 'o' :: rest | .marked, '0' :: 'O' :: rest => orMalformed (readMarked 8 rest)
  | .marked, '0' :: 'b' :: rest | .marked, '0' :: 'B' :: rest => orMalformed (readMarked 2 rest)
  | .marked, '0' :: _ => readZero cs
  | .marked, _ => readDecimal cs

/-- Read an integer with its sign. -/
def readSigned (radix : Radix) : List Char → Except NumeralError Int
  | '-' :: rest => (readMagnitude radix rest).map fun n => -(n : Int)
  | '+' :: rest => (readMagnitude radix rest).map fun n => (n : Int)
  | cs => (readMagnitude radix cs).map fun n => (n : Int)

/-- Read an integer. -/
def readInt (radix : Radix) (cs : List Char) : Except NumeralError Int :=
  let cs := (cs.map plainChar).dropWhile isSpacing
  readSigned radix (cs.reverse.dropWhile isSpacing).reverse

/-- A text that was not read as an integer in a radix. -/
structure BadInteger where
  radix : Radix
  text : List Char
  cause : NumeralError
  deriving Repr, DecidableEq

/-- The most characters of a quoted text that a message shows. -/
def quotedLimit : Nat := 200

/-- The message about a text that was not read as an integer. -/
def BadInteger.message (e : BadInteger) : String :=
  match e.cause with
  | .malformed =>
    s!"invalid literal for int() with base {e.radix.number}: " ++
      String.ofList ((quoted e.text).take quotedLimit)
  | .tooLong digits => digitLimitText ++ s!": value has {digits} digits" ++ digitLimitAdvice

end ChipEight.Text
