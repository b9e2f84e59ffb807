import ChipEight.Room
import ChipEight.Text.Hexadecimal
import ChipEight.Text.Numeral

/-!
# What can be wrong with a source text

Each cause has the parts of the text that belong to it. A complaint is about one line and is
reported with the number of that line. Three mistakes are reported without one: an operand of an
origin that is no integer, an origin too far away to put zeros up to it, and a complaint about a
value that is too long to be written.
-/

namespace ChipEight.Assembly

open Text (HexLayout BadInteger quoted unwritableText)

/-- What is wrong with one line. -/
inductive Complaint where
  /-- The label is already defined. -/
  | duplicateLabel (name : List Char)
  /-- The origin lies before the address that was reached. -/
  | backwards (target current : Int)
  /-- The text is neither a label nor an integer. -/
  | unresolved (token : List Char)
  /-- The value needs more bits than there are. -/
  | outOfRange (value : Int) (bits : Nat)
  /-- The operand at `position`, counted from one, is not a register. -/
  | needsRegister (mnemonic : List Char) (position : Nat)
  /-- There are too few or too many operands. -/
  | operandCount (mnemonic : List Char) (expected actual : Nat)
  /-- A jump with an offset names another register than `V0`. -/
  | offsetRegister
  /-- There is no load between such operands. -/
  | unsupportedLoad (operands : List Char)
  /-- There is no such instruction. -/
  | unknownMnemonic (mnemonic : List Char)
  deriving Repr, DecidableEq

/-- Addresses in complaints and in the origins of a listing. -/
def originLayout : HexLayout := ⟨"0x", false, 0⟩

/-- The text of a complaint. -/
def Complaint.message : Complaint → String
  | .duplicateLabel name => "Duplicate label: " ++ String.ofList name
  | .backwards target current =>
    ".org " ++ originLayout.render target ++ " moves backwards (already at " ++
      originLayout.render current ++ ")"
  | .unresolved token => "Unknown label or bad literal: " ++ String.ofList (quoted token)
  | .outOfRange value bits => s!"Value {value} does not fit in {bits} bits"
  | .needsRegister mnemonic position =>
    String.ofList mnemonic ++ s!": operand {position} must be a register"
  | .operandCount mnemonic expected actual =>
    String.ofList mnemonic ++ s!": expected {expected} operand(s), got {actual}"
  | .offsetRegister => "JP with offset only takes V0"
  | .unsupportedLoad operands => "Unsupported LD form: " ++ String.ofList operands
  | .unknownMnemonic mnemonic => "Unknown mnemonic: " ++ String.ofList (quoted mnemonic)

/-- Whether the numbers in the text of a complaint can be written. -/
def Complaint.isWritable : Complaint → Bool
  | .outOfRange value _ => Text.isWritable value
  | _ => true

/-- Why a source text could not be assembled. -/
inductive Error where
  /-- A complaint about the line with a number, counted from one. -/
  | atLine (number : Nat) (complaint : Complaint)
  /-- The operand of an origin is not an integer. -/
  | badOrigin (cause : BadInteger)
  /-- There is no room for the zeros up to the address of an origin. -/
  | noRoom (cause : RoomError)
  /-- A complaint is about a value that is too long to be written. -/
  | unwritable
  deriving Repr, DecidableEq

/-- The error that a complaint about the line with a number makes. -/
def Error.ofComplaint (number : Nat) (complaint : Complaint) : Error :=
  if complaint.isWritable then .atLine number complaint else .unwritable

/-- The text of an error. -/
def Error.message : Error → String
  | .atLine number complaint => s!"Line {number}: " ++ complaint.message
  | .badOrigin cause => cause.message
  | .noRoom cause => cause.message
  | .unwritable => unwritableText

end ChipEight.Assembly
