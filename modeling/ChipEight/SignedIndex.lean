/-!
# Positions counted from either end

A position in a sequence may be given as an integer: from zero on it counts from the front, and a
negative one counts from the back, `-1` being the last. `signedIndex` turns it into a plain
position. Positions and sizes are counted in sixty-four bits with a sign, so an integer beyond that
is refused whatever the sequence is.
-/

namespace ChipEight

/-- The least integer that is too large to count anything. -/
def indexLimit : Int := 0x8000000000000000

/-- Whether an integer can count positions and sizes. -/
def fitsIndex (i : Int) : Bool := -indexLimit ≤ i && i < indexLimit

/-- The message about an integer that cannot count anything. -/
def unindexableText : String := "cannot fit 'int' into an index-sized integer"

/-- Why an integer is no position in a sequence. -/
inductive PositionError where
  /-- It cannot count positions. -/
  | unindexable
  /-- There is no such place in the sequence, which goes by a name. -/
  | outside (sequence : String)
  deriving Repr, DecidableEq

/-- The text of the error. -/
def PositionError.message : PositionError → String
  | .unindexable => unindexableText
  | .outside sequence => sequence ++ " index out of range"

/-- A position counted from the front, which for a negative one is as far from the size. -/
def fromFront (size : Nat) (i : Int) : Int := if 0 ≤ i then i else size + i

/-- The plain position that `i` names in a sequence of `size` items. -/
def signedIndex (sequence : String) (size : Nat) (i : Int) : Except PositionError Nat :=
  if fitsIndex i then
    if 0 ≤ fromFront size i ∧ fromFront size i < size then .ok (fromFront size i).toNat
    else .error (.outside sequence)
  else .error .unindexable

section Found

variable {sequence : String} {size k : Nat}

/-- A position that was found lies inside. -/
theorem lt_of_signedIndex {i : Int} (h : signedIndex sequence size i = .ok k) : k < size := by
  unfold signedIndex at h
  split at h
  · split at h
    · simp only [Except.ok.injEq] at h
      omega
    · simp at h
  · simp at h

/-- A plain position inside is found. -/
theorem signedIndex_of_lt (h : k < size) (hsize : size < indexLimit) :
    signedIndex sequence size k = .ok k := by
  have hfits : fitsIndex k = true := by
    simp only [fitsIndex, Bool.and_eq_true, decide_eq_true_eq]
    omega
  have hfront : fromFront size k = k := if_pos (by omega)
  rw [signedIndex, if_pos hfits, hfront, if_pos (by omega)]
  rfl

end Found

/-- The end of a range: one before the start counts from the back, and none passes the size. -/
def signedEnd (size : Nat) (i : Int) : Nat := min size (fromFront size i).toNat

end ChipEight
