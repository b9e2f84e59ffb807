import ChipEight.Random.Twister

/-!
# Random bytes

Where a machine's random bytes come from: a list that is gone through in a circle, or a generator
started from a seed. From the generator's numbers a byte is made by taking the nine highest bits
and trying again as long as they are more than a byte holds.
-/

namespace ChipEight.Random

/-- A source of random bytes. -/
inductive Source where
  /-- The given bytes in turn, beginning again after the last; `used` counts the bytes taken. -/
  | cycle (bytes : Array UInt8) (used : Nat)
  /-- The bytes of a generator. -/
  | seeded (generator : Twister)
  deriving Repr, DecidableEq

namespace Source

/-- The words of 32 bits that make up a number, the lowest first; zero has one word. -/
def keyWords (n : Nat) : List UInt32 :=
  if n < 0x100000000 then [UInt32.ofNat n]
  else UInt32.ofNat n :: keyWords (n / 0x100000000)
termination_by n

/-- The source that an integer starts; a number and its negative start the same one. -/
def ofSeed (seed : Int) : Source := .seeded (Twister.ofKey (keyWords seed.natAbs))

/-- The source that goes around a list of bytes. -/
def ofBytes (bytes : List UInt8) : Source := .cycle bytes.toArray 0

/-- The first number, of at most `tries`, whose nine highest bits fit a byte, as that byte. -/
def drawByte : Nat → Twister → UInt8 × Twister
  | 0, t => (0, t)
  | tries + 1, t =>
    let (number, t) := t.next
    let bits := (number >>> 23).toNat
    if bits < 256 then (UInt8.ofNat bits, t) else drawByte tries t

/-- More tries than a draw can need. The state has 19937 bits, and the highest bits of the numbers
satisfy a recurrence of that length which does not stay constant, so there are never more than
19937 numbers in a row whose highest bit is set. -/
def maxTries : Nat := 19938

/-- The next random byte. -/
def next : Source → UInt8 × Source
  | .cycle bytes used => (bytes.getD (used % bytes.size) 0, .cycle bytes (used + 1))
  | .seeded generator =>
    let (byte, generator) := drawByte maxTries generator
    (byte, .seeded generator)

end Source

end ChipEight.Random
