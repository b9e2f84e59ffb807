/-!
# Letter case

Names that are written in either case are compared after folding them to small letters. The names
are all made of plain letters, so folding only has to be right about the characters whose small form
is a plain letter: the capitals `A` to `Z`, and the sign for kelvins, whose small form is `k`.
-/

namespace ChipEight.Text

/-- The small form of a character, if that is a plain letter. -/
def foldChar (c : Char) : Char := if c = '\u212A' then 'k' else c.toLower

/-- A text with its letters folded. -/
def fold (cs : List Char) : List Char := cs.map foldChar

/-- Whether a text is a name written in some case; the name itself is in small letters. -/
def isName (cs : List Char) (name : String) : Bool := fold cs == name.toList

/-- Whether a text begins with a name written in some case. -/
def beginsWithName (cs : List Char) (name : String) : Bool := name.toList.isPrefixOf (fold cs)

end ChipEight.Text
