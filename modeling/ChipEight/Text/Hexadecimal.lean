/-!
# Hexadecimal text

Numbers written in base sixteen to a fixed layout: a sign if the number is negative, a marker such
as `0x`, then the digits, with zeros in front of them until the whole text has its least width. A
number that needs more room gets it, so no digit is ever lost (`le_length_render`).
-/

namespace ChipEight.Text

/-- The layout of a number in base sixteen. -/
structure HexLayout where
  /-- What stands between the sign and the digits. -/
  marker : String
  /-- Whether the digits above nine are capital letters. -/
  capital : Bool
  /-- The least width of the whole text, sign and marker included. -/
  width : Nat
  deriving Repr, DecidableEq

/-- The capital form of a digit that `Nat.toDigits` writes. -/
def capitalDigit : Char → Char
  | 'a' => 'A'
  | 'b' => 'B'
  | 'c' => 'C'
  | 'd' => 'D'
  | 'e' => 'E'
  | 'f' => 'F'
  | c => c

namespace HexLayout

/-- The digits of a number, most significant first. -/
def digits (layout : HexLayout) (n : Nat) : List Char :=
  if layout.capital then (Nat.toDigits 16 n).map capitalDigit else Nat.toDigits 16 n

/-- The sign and the marker that stand before the digits of `value`. -/
def lead (layout : HexLayout) (value : Int) : List Char :=
  (if value < 0 then ['-'] else []) ++ layout.marker.toList

/-- The text of `value` as a list of characters. -/
def chars (layout : HexLayout) (value : Int) : List Char :=
  let lead := layout.lead value
  let digits := layout.digits value.natAbs
  lead ++ List.replicate (layout.width - (lead.length + digits.length)) '0' ++ digits

/-- The text of `value`. -/
def render (layout : HexLayout) (value : Int) : String :=
  String.ofList (layout.chars value)

end HexLayout

end ChipEight.Text
