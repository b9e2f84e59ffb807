import ChipEight.Fault
import ChipEight.SignedIndex

/-!
# The keypad

Sixteen keys and a latch. While the latch is armed, the first key that goes down is kept as the
pending press until it is taken; keys that were held before do not count, and neither do presses
after the first.
-/

namespace ChipEight

/-- One of the sixteen keys. -/
abbrev Key := Fin 16

/-- The key that the low nibble of a byte names. -/
def keyOf (value : UInt8) : Key := ⟨value.toNat % 16, Nat.mod_lt _ (by decide)⟩

/-- The keys and the latch. -/
structure Keypad where
  /-- Which keys are held. -/
  held : Vector Bool 16 := Vector.replicate 16 false
  /-- Whether the latch listens. -/
  armed : Bool := false
  /-- The press that the latch keeps. -/
  pending : Option Key := none
  deriving Repr, DecidableEq

/-- The key with a code. -/
def Key.ofCode (code : Int) : Except Fault Key :=
  if h : 0 ≤ code ∧ code < 16 then .ok ⟨code.toNat, by omega⟩ else .error (.keyOutOfRange code)

/-- Every key has its number as its code. -/
@[simp]
theorem Key.ofCode_val (key : Key) : Key.ofCode key.val = .ok key := by
  have h := key.isLt
  unfold Key.ofCode
  rw [dif_pos (by omega)]
  rfl

namespace Keypad

/-- A key goes down. -/
def press (k : Keypad) (key : Key) : Keypad :=
  { k with
    held := k.held.set key true
    pending := if k.armed ∧ k.pending = none then some key else k.pending }

/-- A key goes up. -/
def release (k : Keypad) (key : Key) : Keypad :=
  { k with held := k.held.set key false }

/-- Whether a key is held. -/
def isDown (k : Keypad) (key : Key) : Bool := k.held[key]

/-- Whether the key at a position that may count from the back is held. -/
def isDownAt (k : Keypad) (position : Int) : Except PositionError Bool :=
  (signedIndex "list" 16 position).map fun n => k.held.getD n false

/-- The number of a key is its position. -/
@[simp]
theorem isDownAt_val (k : Keypad) (key : Key) : k.isDownAt key.val = .ok (k.isDown key) := by
  rw [isDownAt, signedIndex_of_lt key.isLt (by decide)]
  show Except.ok (k.held.getD key.val false) = .ok k.held[key]
  simp [Vector.getD]

/-- Listen for the next press. -/
def arm (k : Keypad) : Keypad := { k with armed := true, pending := none }

/-- Take the pending press, if there is one, and stop listening. -/
def take (k : Keypad) : Option Key × Keypad :=
  match k.pending with
  | none => (none, k)
  | some key => (some key, { k with armed := false, pending := none })

theorem take_of_pending {k : Keypad} {key : Key} (h : k.pending = some key) :
    k.take = (some key, { k with armed := false, pending := none }) := by
  unfold take
  rw [h]

/-- The keys that are held, in ascending order. -/
def heldKeys (k : Keypad) : List Key := (List.finRange 16).filter k.isDown

end Keypad

end ChipEight
