import ChipEight.Assembly.Error
import ChipEight.Assembly.Statement
import ChipEight.Instruction.Basic

/-!
# Operands

An operand is a register, a name that stands for a part of the machine, or a value. A value is
written as a label or as an integer, labels first, and has to fit into the bits that there are for
it. Into eight bits a negative value down to -128 fits as well, as the byte that stands for it.
Blanks at the ends of an operand do not count, whatever it is.
-/

namespace ChipEight.Assembly

open Text

/-- The labels of a source text with their addresses, in the order of their definition. -/
abbrev Labels := List (List Char × Int)

/-! ## Registers -/

/-- The register of a hexadecimal digit. -/
def registerOfDigit? (c : Char) : Option Register :=
  match digitValue? 16 c with
  | none => none
  | some d => if h : d < 16 then some ⟨d, h⟩ else none

/-- The register that a text names: `V` and one digit, in either case. -/
def readRegister? (cs : List Char) : Option Register :=
  match fold (trim cs) with
  | ['v', digit] => registerOfDigit? digit
  | _ => none

/-! ## Values -/

/-- The radix in which an integer is read, which its beginning decides. -/
def radixOf : List Char → Radix
  | '0' :: 'x' :: _ | '0' :: 'X' :: _ => .hexadecimal
  | '-' :: _ => .decimal
  | _ => .marked

/-- Read an integer. -/
def readImmediate (cs : List Char) : Except BadInteger Int :=
  let cs := trim cs
  match readInt (radixOf cs) cs with
  | .ok value => .ok value
  | .error cause => .error ⟨radixOf cs, cs, cause⟩

/-- Put a value into a field of bits. -/
def fitBits (bits : Nat) (value : Int) : Except Complaint Nat :=
  if 0 ≤ value ∧ value < (1 <<< bits : Nat) then .ok value.toNat
  else if bits = 8 ∧ -128 ≤ value ∧ value < 0 then .ok (value + 256).toNat
  else .error (.outOfRange value bits)

/-- The value of a label or an integer, put into a field of bits. -/
def resolve (labels : Labels) (bits : Nat) (token : List Char) : Except Complaint Nat :=
  let token := trim token
  match labels.lookup token with
  | some address => fitBits bits address
  | none =>
    match readImmediate token with
    | .ok value => fitBits bits value
    | .error _ => .error (.unresolved token)

/-! ## Kinds -/

/-- What an operand of a load is, as far as its spelling tells. -/
inductive OperandKind where
  | register
  | index
  | indirect
  | delay
  | sound
  | key
  | glyph
  | decimal
  /-- Anything else, to be read as a value. -/
  | value
  deriving Repr, DecidableEq

/-- The names of the kinds that are spelled in one way. `Vx`, the name by which the instruction set
calls a register, is taken for one here. -/
def kindNames : List (String × OperandKind) :=
  [("vx", .register), ("i", .index), ("[i]", .indirect), ("dt", .delay), ("st", .sound),
    ("k", .key), ("f", .glyph), ("b", .decimal)]

/-- The kind of an operand. -/
def OperandKind.ofText (cs : List Char) : OperandKind :=
  if (readRegister? cs).isSome then .register
  else ((kindNames.find? fun entry => isName (trim cs) entry.1).map (·.2)).getD .value

end ChipEight.Assembly
