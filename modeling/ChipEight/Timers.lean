/-!
# Timers

Two counters that go down by one on every tick until they reach zero, and the number of ticks so
far. Sound is on while the second one is not zero.
-/

namespace ChipEight

/-- The delay and the sound timer. -/
structure Timers where
  delay : UInt8 := 0
  sound : UInt8 := 0
  /-- The number of ticks so far. -/
  ticks : Nat := 0
  deriving Repr, DecidableEq

namespace Timers

/-- One less, but never below zero. -/
def countDown (value : UInt8) : UInt8 := if value = 0 then 0 else value - 1

theorem toNat_countDown (value : UInt8) : (countDown value).toNat = value.toNat - 1 := by
  unfold countDown
  split
  · next h => simp [h]
  · next h =>
    have h0 : value.toNat ≠ 0 := fun h' => h (UInt8.toNat_inj.1 (by simpa using h'))
    have h1 : (1 : UInt8) ≤ value := UInt8.le_iff_toNat_le.2 (Nat.pos_of_ne_zero h0)
    rw [UInt8.toNat_sub_of_le _ _ h1]
    rfl

/-- One tick of both timers. -/
def tick (t : Timers) : Timers :=
  { delay := countDown t.delay, sound := countDown t.sound, ticks := t.ticks + 1 }

/-- Whether sound is on. -/
def soundOn (t : Timers) : Bool := t.sound ≠ 0

end Timers

end ChipEight
