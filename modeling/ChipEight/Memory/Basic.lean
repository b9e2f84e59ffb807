import ChipEight.Fault
import ChipEight.Instruction.Basic
import ChipEight.Room

/-!
# Memory

A flat store of bytes in which every access is checked against the bounds before anything is read
or written. Addresses are integers, so that an address computed outside the store is an address
like any other and is refused by the check.
-/

namespace ChipEight

/-- The size of a machine's memory. -/
def memorySize : Nat := 4096

/-- Where programs are loaded and started. -/
def programBase : Int := 0x200

/-- A store of bytes with bounds. -/
structure Memory where
  /-- The first address that an access may not touch. -/
  size : Nat
  /-- The stored bytes. -/
  bytes : Array UInt8
  deriving Repr, DecidableEq

/-- The byte that an integer wraps to. -/
def wrapByte (value : Int) : UInt8 := UInt8.ofInt value

/-- The word that an integer wraps to. -/
def wrapWord (value : Int) : UInt16 := UInt16.ofInt value

/-- Put bytes over the stored ones from `start` on. -/
def overwrite (bytes : Array UInt8) (start : Nat) : List UInt8 → Array UInt8
  | [] => bytes
  | value :: rest => overwrite (bytes.setIfInBounds start value) (start + 1) rest

@[simp]
theorem size_overwrite (bytes : Array UInt8) (start : Nat) (values : List UInt8) :
    (overwrite bytes start values).size = bytes.size := by
  induction values generalizing bytes start with
  | nil => rfl
  | cons value rest ih => simp [overwrite, ih]

namespace Memory

/-- A store of zeros. -/
def blank (size : Nat) : Memory := ⟨size, Array.replicate size 0⟩

/-- A store of zeros, if there is room for it. -/
def create (size : Int) : Except RoomError Memory := (roomFor size).map blank

/-- Refuse an access to `length` bytes from `start` on unless all of them lie in the store. The
fault names `start` if that is outside, and else the first address after the store. -/
def check (m : Memory) (start length : Int) : Except Fault Unit :=
  if start < 0 ∨ m.size < start + length then
    .error (.memory (if start < 0 ∨ m.size ≤ start then start else m.size))
  else .ok ()

/-- The byte at a plain address. -/
def byteAt (m : Memory) (address : Nat) : UInt8 := m.bytes.getD address 0

/-- Read one byte. -/
def readByte (m : Memory) (address : Int) : Except Fault UInt8 := do
  m.check address 1
  return m.byteAt address.toNat

/-- Write one byte. -/
def writeByte (m : Memory) (address : Int) (value : UInt8) : Except Fault Memory := do
  m.check address 1
  return { m with bytes := m.bytes.setIfInBounds address.toNat value }

/-- Read a word of two bytes, the high one first. -/
def readWord (m : Memory) (address : Int) : Except Fault UInt16 := do
  m.check address 2
  return Word.ofBytes (m.byteAt address.toNat) (m.byteAt (address.toNat + 1))

/-- Read `length` bytes. The end of the range is a position that may count from the back, so a
negative length is no error by itself. -/
def readBlock (m : Memory) (start length : Int) : Except Fault (List UInt8) := do
  m.check start length
  return (m.bytes.extract start.toNat (signedEnd m.bytes.size (start + length))).toList

/-- Write a run of bytes; the whole range is checked first. -/
def writeBlock (m : Memory) (start : Int) (values : List UInt8) : Except Fault Memory := do
  m.check start values.length
  return { m with bytes := overwrite m.bytes start.toNat values }

/-- Put a program at `base`. -/
def loadProgram (m : Memory) (program : List UInt8) (base : Int) : Except LoadError Memory :=
  if base < 0 ∨ m.size < base + program.length then
    .error (.tooLarge program.length base m.size)
  else .ok { m with bytes := overwrite m.bytes base.toNat program }

end Memory

end ChipEight
