import ChipEight.Assembly.Layout
import ChipEight.Assembly.Operation

/-!
# Images

The bytes of a source text. They are emitted in rows, one for each line that is not a label: where
the row starts, how many zeros an origin puts there, the bytes of the line and its text. The image
is all of this in order.
-/

namespace ChipEight.Assembly

open Text

/-- What one line emits. -/
structure Row where
  /-- Where the row starts. -/
  address : Int
  /-- The zeros up to the address of an origin. -/
  padding : Nat
  /-- The bytes of a directive or an instruction. -/
  bytes : List UInt8
  /-- The text of the line; an origin is written anew. -/
  text : List Char
  deriving Repr, DecidableEq

/-- The bytes of a row in the image. -/
def Row.image (row : Row) : List UInt8 := List.replicate row.padding 0 ++ row.bytes

/-- The address after a row. -/
def Row.after (row : Row) : Int := row.address + row.padding + row.bytes.length

/-- Resolve values into fields of bits, in order. -/
def resolveAll (labels : Labels) (bits : Nat) : List (List Char) → Except Complaint (List Nat)
  | [] => .ok []
  | token :: rest => do
    let value ← resolve labels bits token
    let values ← resolveAll labels bits rest
    return value :: values

/-- The bytes of a statement that is neither a label nor an origin. -/
def Statement.emit (labels : Labels) : Statement → Except Complaint (List UInt8)
  | .bytes operands => do
    return (← resolveAll labels 8 operands).map UInt8.ofNat
  | .words operands => do
    return (← resolveAll labels 16 operands).flatMap fun value => Word.toBytes (UInt16.ofNat value)
  | .operation mnemonic rest => do
    return Word.toBytes (Instruction.encode (← (Operation.mk labels mnemonic rest).instruction))
  | _ => .ok []

/-- The text of an origin in a listing. -/
def originText (target : Int) : List Char := ".org ".toList ++ originLayout.chars target

/-- The row of a line that starts at an address; a label has none. -/
def rowAt? (labels : Labels) (address : Int) (line : SourceLine) : Except Error (Option Row) :=
  match Statement.ofText line.text with
  | .label _ => .ok none
  | .origin operand =>
    match readImmediate operand with
    | .error cause => .error (.badOrigin cause)
    | .ok target =>
      match roomForRun (target - address) with
      | .error cause => .error (.noRoom cause)
      | .ok padding => .ok (some ⟨address, padding, [], originText target⟩)
  | statement =>
    match statement.emit labels with
    | .error complaint => .error (.ofComplaint line.number complaint)
    | .ok bytes => .ok (some ⟨address, 0, bytes, line.text⟩)

/-- The rows of lines from an address on. -/
def rowsFrom (labels : Labels) (address : Int) : List SourceLine → Except Error (List Row)
  | [] => .ok []
  | line :: rest => do
    match ← rowAt? labels address line with
    | none => rowsFrom labels address rest
    | some row =>
      let rows ← rowsFrom labels row.after rest
      return row :: rows

/-- A source text that was assembled. -/
structure Assembled where
  labels : Labels
  rows : List Row
  deriving Repr, DecidableEq

/-- The image: the bytes of all rows. -/
def Assembled.image (a : Assembled) : List UInt8 := a.rows.flatMap Row.image

/-- Assemble a source text for an address. Every mistake in the layout is found before any in the
operands of instructions and data. -/
def assemble (source : String) (base : Int) : Except Error Assembled := do
  let lines := sourceLines source.toList
  let layout ← (Layout.mk [] base).scan lines
  let rows ← rowsFrom layout.labels base lines
  return ⟨layout.labels, rows⟩

end ChipEight.Assembly
