import ChipEight.Assembly.Operand

/-!
# Where everything goes

Going through a source text once without reading any operand but those of origins: how much room
each statement takes, and so at which address each label stands. Every instruction takes two bytes,
so the addresses are known before the values that refer to them.
-/

namespace ChipEight.Assembly

open Text

/-- The number of bytes that a statement emits, origins apart. -/
def Statement.size : Statement → Nat
  | .label _ => 0
  | .origin _ => 0
  | .bytes operands => operands.length
  | .words operands => 2 * operands.length
  | .operation _ _ => 2

/-- How far a source text was gone through. -/
structure Layout where
  /-- The labels so far. -/
  labels : Labels
  /-- The address that was reached. -/
  address : Int
  deriving Repr, DecidableEq

namespace Layout

/-- Go through one line. -/
def step (l : Layout) (line : SourceLine) : Except Error Layout :=
  match Statement.ofText line.text with
  | .label name =>
    if (l.labels.lookup name).isSome then .error (.atLine line.number (.duplicateLabel name))
    else .ok { l with labels := l.labels ++ [(name, l.address)] }
  | .origin operand =>
    match readImmediate operand with
    | .error cause => .error (.badOrigin cause)
    | .ok target =>
      if target < l.address then .error (.atLine line.number (.backwards target l.address))
      else .ok { l with address := target }
  | statement => .ok { l with address := l.address + statement.size }

/-- Go through lines. -/
def scan (l : Layout) : List SourceLine → Except Error Layout
  | [] => .ok l
  | line :: rest => do
    let l ← l.step line
    l.scan rest

end Layout

end ChipEight.Assembly
