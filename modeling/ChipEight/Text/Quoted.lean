import ChipEight.Text.Printable

/-!
# Quoted texts

A text between quotes. The quotes are single ones, unless the text has a single quote and no double
one. The mark around the text and the backslash are written with a backslash before them, and a
character that is not printable by a letter or by its code point in two, four or eight digits.
-/

namespace ChipEight.Text

/-- The mark that goes around a text. -/
def quoteMark (cs : List Char) : Char :=
  if cs.contains '\'' && !cs.contains '"' then '"' else '\''

/-- The lowest `count` hexadecimal digits of a number. -/
def lowDigits : Nat → Nat → List Char
  | 0, _ => []
  | count + 1, n => lowDigits count (n / 16) ++ [Nat.digitChar (n % 16)]

/-- A character inside quotes. -/
def escape (mark c : Char) : List Char :=
  if c = mark ∨ c = '\\' then ['\\', c]
  else if c = '\n' then ['\\', 'n']
  else if c = '\r' then ['\\', 'r']
  else if c = '\t' then ['\\', 't']
  else if isPrintable c then [c]
  else if c.toNat < 0x100 then '\\' :: 'x' :: lowDigits 2 c.toNat
  else if c.toNat < 0x10000 then '\\' :: 'u' :: lowDigits 4 c.toNat
  else '\\' :: 'U' :: lowDigits 8 c.toNat

/-- A text in quotes. -/
def quoted (cs : List Char) : List Char :=
  let mark := quoteMark cs
  mark :: cs.flatMap (escape mark) ++ [mark]

end ChipEight.Text
