import ChipEight.Fault
import ChipEight.Memory.Basic
import ChipEight.SignedIndex

/-!
# Registers and the call stack

Sixteen registers of a byte each, the index register, the program counter and the stack of return
addresses. The index register and the program counter are integers, because both may be set to any
value from outside; the machine checks them where it uses them.
-/

namespace ChipEight

/-- The register file of a machine. -/
structure Registers where
  /-- The general registers. -/
  v : Vector UInt8 16 := Vector.replicate 16 0
  /-- The index register. -/
  index : Int := 0
  /-- The program counter. -/
  pc : Int := programBase
  /-- The return addresses, the newest first. What once stood in the slots above them is not kept,
  because nothing reads it. -/
  stack : List UInt16 := []
  deriving Repr, DecidableEq

namespace Registers

/-- The value of a general register. -/
def get (r : Registers) (x : Register) : UInt8 := r.v[x]

/-- Put a byte into a general register. -/
def set (r : Registers) (x : Register) (value : UInt8) : Registers :=
  { r with v := r.v.set x value }

@[simp]
theorem get_set_self (r : Registers) (x : Register) (value : UInt8) :
    (r.set x value).get x = value := by
  simp [get, set]

theorem get_set_of_ne (r : Registers) {x y : Register} (value : UInt8) (h : x ≠ y) :
    (r.set x value).get y = r.get y := by
  simp [get, set, Vector.getElem_set_ne, Fin.val_ne_of_ne h]

/-- Put a byte into the register at a position that may count from the back. -/
def setAt (r : Registers) (position : Int) (value : UInt8) : Except PositionError Registers :=
  (signedIndex "list assignment" 16 position).map fun k => { r with v := r.v.setIfInBounds k value }

/-- To put a byte at a position inside is to put it into a register. -/
theorem setIfInBounds_eq_set (r : Registers) {k : Nat} (h : k < 16) (value : UInt8) :
    { r with v := r.v.setIfInBounds k value } = r.set ⟨k, h⟩ value := by
  have hv : r.v.setIfInBounds k value = r.v.set k value := by
    ext i hi
    simp [Vector.getElem_setIfInBounds, Vector.getElem_set]
  rw [hv]
  rfl

/-- The number of a register is its position. -/
@[simp]
theorem setAt_val (r : Registers) (x : Register) (value : UInt8) :
    r.setAt x.val value = .ok (r.set x value) := by
  rw [setAt, signedIndex_of_lt x.isLt (by decide)]
  exact congrArg _ (r.setIfInBounds_eq_set x.isLt value)

/-- Wherever a byte is put, it gets into one register and into no other. -/
theorem exists_eq_set_of_setAt {r r' : Registers} {position : Int} {value : UInt8}
    (h : r.setAt position value = .ok r') : ∃ x, r' = r.set x value := by
  unfold setAt at h
  cases hk : signedIndex "list assignment" 16 position with
  | error e =>
    rw [hk] at h
    cases h
  | ok k =>
    rw [hk] at h
    cases h
    exact ⟨⟨k, lt_of_signedIndex hk⟩, r.setIfInBounds_eq_set _ value⟩

/-- The return addresses, the oldest first. -/
def calls (r : Registers) : List UInt16 := r.stack.reverse

/-- Put a return address on the stack. -/
def push (r : Registers) (address : UInt16) : Except Fault Registers :=
  if r.stack.length = stackDepth then .error .stackOverflow
  else .ok { r with stack := address :: r.stack }

/-- Take the newest return address off the stack. -/
def pop (r : Registers) : Except Fault (UInt16 × Registers) :=
  match r.stack with
  | [] => .error .stackUnderflow
  | address :: rest => .ok (address, { r with stack := rest })

end Registers

end ChipEight
