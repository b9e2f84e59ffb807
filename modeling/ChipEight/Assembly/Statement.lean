import ChipEight.Text.Blank
import ChipEight.Text.Fold

/-!
# Lines and statements

A source text is cut into lines. What follows a semicolon is a comment, and what is left of a line
without the blanks at its ends is its text; lines without text are left out, the others keep their
numbers. The text of a line says what kind of statement it is: a label ends with a colon, a
directive begins with its name, and everything else is an instruction.
-/

namespace ChipEight.Assembly

open Text

/-! ## Lines -/

/-- A line with something on it. -/
structure SourceLine where
  /-- The number of the line, counted from one. -/
  number : Nat
  /-- What is on it, without a comment and without blanks at the ends. -/
  text : List Char
  deriving Repr, DecidableEq

/-- The text of a line: no comment, and no blanks at the ends. -/
def lineText (line : List Char) : List Char := trim (line.takeWhile (· ≠ ';'))

/-- Number lines from `number` on and keep those with a text. -/
def numberLines (number : Nat) : List (List Char) → List SourceLine
  | [] => []
  | line :: rest =>
    let later := numberLines (number + 1) rest
    if (lineText line).isEmpty then later else ⟨number, lineText line⟩ :: later

/-- The lines of a source text that have something on them. -/
def sourceLines (source : List Char) : List SourceLine := numberLines 1 (pieces '\n' source)

/-! ## Statements -/

/-- What a line says. -/
inductive Statement where
  /-- A label stands for the address that was reached. -/
  | label (name : List Char)
  /-- Go on at an address. -/
  | origin (operand : List Char)
  /-- Emit bytes. -/
  | bytes (operands : List (List Char))
  /-- Emit words. -/
  | words (operands : List (List Char))
  /-- Emit an instruction. -/
  | operation (mnemonic operands : List Char)
  deriving Repr, DecidableEq

/-- The operands between commas, without blanks at their ends; empty ones are left out. -/
def splitOperands (cs : List Char) : List (List Char) :=
  ((pieces ',' cs).map trim).filter (!·.isEmpty)

/-- The statement that the text of a line is. -/
def Statement.ofText (text : List Char) : Statement :=
  if text.getLast? = some ':' then .label (trim text.dropLast)
  else if beginsWithName text ".org" then .origin (text.drop 4)
  else if beginsWithName text ".db" then .bytes (splitOperands (text.drop 3))
  else if beginsWithName text ".dw" then .words (splitOperands (text.drop 3))
  else
    let (mnemonic, operands) := splitWord text
    .operation mnemonic operands

end ChipEight.Assembly
