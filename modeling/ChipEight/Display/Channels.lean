import ChipEight.Display.Picture
import ChipEight.Memory.Basic

/-!
# Painting with channels

The cells of a screen in two colours, each of which is a list of channels. A channel is given as an
integer and has to be a byte. Both colours have to have the same number of channels, except that a
single channel stands for as many as the other colour has.
-/

namespace ChipEight

/-- A screen painted in colours with some number of channels. -/
structure Painting where
  channels : Nat
  picture : Picture (List UInt8)

/-- Why cells cannot be painted. -/
inductive PaintError where
  /-- There are too many or too few cells for a screen. -/
  | badCellCount (count : Nat)
  /-- A channel is no byte. -/
  | badChannel (value : Int)
  /-- A channel is an integer beyond sixty-four bits. -/
  | hugeChannel
  /-- The colours have numbers of channels that do not go together. -/
  | channelMismatch (on off : Nat)
  deriving Repr, DecidableEq

/-- The text of the error. -/
def PaintError.message : PaintError → String
  | .badCellCount count =>
    s!"cannot reshape array of size {count} into shape ({screenHeight},{screenWidth})"
  | .badChannel value => s!"Python integer {value} out of bounds for uint8"
  | .hugeChannel => "Python int too large to convert to C long"
  | .channelMismatch on off =>
    "operands could not be broadcast together with shapes " ++
      s!"({screenWidth},{screenHeight},1) ({on},) ({off},) "

namespace Painting

/-- The byte of a channel. -/
def channel (value : Int) : Except PaintError UInt8 :=
  if fitsIndex value then
    if 0 ≤ value ∧ value < 256 then .ok (wrapByte value) else .error (.badChannel value)
  else .error .hugeChannel

/-- How many channels two colours have together. -/
def jointCount (on off : Nat) : Except PaintError Nat :=
  if on = off ∨ off = 1 then .ok on
  else if on = 1 then .ok off
  else .error (.channelMismatch on off)

/-- A colour with a number of channels: a single channel stands for all of them. -/
def spread (count : Nat) (color : List UInt8) : List UInt8 :=
  match color with
  | [value] => List.replicate count value
  | color => color

/-- Paint cells, those that are lit in one colour and the others in another. -/
def ofCells (cells : Array Bool) (on off : List Int) : Except PaintError Painting := do
  if cells.size ≠ screenWidth * screenHeight then throw (.badCellCount cells.size)
  let on ← on.mapM channel
  let off ← off.mapM channel
  let count ← jointCount on.length off.length
  return ⟨count, Picture.ofCells cells (spread count on) (spread count off)⟩

end Painting

end ChipEight
