import ChipEight.SignedIndex

/-!
# Room for bytes

How many bytes can be set aside is an integer that comes from outside: the size of a store, the
sides of a grid, the distance to an origin. It has to count something, to be no less than zero, and
to be no more than there is room for.
-/

namespace ChipEight

/-- Why there is no room for a number of bytes. -/
inductive RoomError where
  /-- The integer cannot count bytes. -/
  | unindexable
  /-- The number is negative. -/
  | negative
  /-- A run of so many bytes could not be counted together with its header. -/
  | tooLarge
  /-- There are not so many bytes. -/
  | exhausted
  deriving Repr, DecidableEq

/-- The text of the error; nothing is said when the bytes run out. -/
def RoomError.message : RoomError → String
  | .unindexable => unindexableText
  | .negative => "negative count"
  | .tooLarge => "byte string is too large"
  | .exhausted => ""

/-- The most bytes that there are. -/
def roomLimit : Int := 0x1000000000

/-- Set aside a number of bytes. -/
def roomFor (count : Int) : Except RoomError Nat :=
  if fitsIndex count then
    if count < 0 then .error .negative
    else if roomLimit < count then .error .exhausted
    else .ok count.toNat
  else .error .unindexable

/-- The size of the header of a run of bytes. -/
def headerSize : Int := 33

/-- Set aside a number of bytes for a run with a header. -/
def roomForRun (count : Int) : Except RoomError Nat :=
  if indexLimit - headerSize ≤ count ∧ count < indexLimit then .error .tooLarge else roomFor count

end ChipEight
