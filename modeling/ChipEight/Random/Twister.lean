/-!
# The twister

A generator of 32-bit numbers with a state of 624 words. Its state is filled from a key, a list of
words; numbers are then read off the state in turn and scrambled, and once all are used the whole
state is replaced by the next one.
-/

namespace ChipEight.Random

/-- The state of a generator. -/
structure Twister where
  /-- The 624 words of the state. -/
  words : Array UInt32
  /-- How many of them have been used. -/
  used : Nat
  deriving Repr, DecidableEq

namespace Twister

/-- The number of words of the state. -/
def stateSize : Nat := 624

/-- The distance between a word and the one that is mixed into it. -/
def stateShift : Nat := 397

/-- A word of the state, positions wrapping around. -/
def wordAt (words : Array UInt32) (i : Nat) : UInt32 := words.getD (i % stateSize) 0

/-! ## Filling the state -/

/-- The state that a single number fills. -/
def fill (seed : UInt32) : Array UInt32 :=
  (List.range' 1 (stateSize - 1)).foldl
    (fun words i =>
      let last := words.getD (i - 1) 0
      words.push ((last ^^^ (last >>> 30)) * 1812433253 + UInt32.ofNat i))
    #[seed]

/-- Where the mixing of a key stands: the words and the place that is mixed next. -/
structure Mixing where
  words : Array UInt32
  place : Nat

/-- Mix one word: `factor` scatters the word before it, and `change` is applied to the outcome.
At the end of the state the last word is carried to the first place. -/
def Mixing.step (m : Mixing) (factor : UInt32) (change : UInt32 → UInt32) : Mixing :=
  let last := m.words.getD (m.place - 1) 0
  let value := change (m.words.getD m.place 0 ^^^ ((last ^^^ (last >>> 30)) * factor))
  let words := m.words.setIfInBounds m.place value
  if m.place + 1 < stateSize then ⟨words, m.place + 1⟩
  else ⟨words.setIfInBounds 0 value, 1⟩

/-- The state that a key fills. The key is gone through in a circle, at least once for every word
of the state. -/
def ofKey (key : List UInt32) : Twister :=
  let key := key.toArray
  let first := (List.range (max stateSize key.size)).foldl
    (fun m k =>
      let j := k % key.size
      m.step 1664525 fun value => value + key.getD j 0 + UInt32.ofNat j)
    (Mixing.mk (fill 19650218) 1)
  let second := (List.range (stateSize - 1)).foldl
    (fun m _ => m.step 1566083941 fun value => value - UInt32.ofNat m.place)
    first
  ⟨second.words.setIfInBounds 0 0x80000000, stateSize⟩

/-! ## Numbers -/

/-- One word of the next state, from the high bit of one word, the low bits of the word after it
and the word at a distance. -/
def twist (current next distant : UInt32) : UInt32 :=
  let joined := (current &&& 0x80000000) ||| (next &&& 0x7FFFFFFF)
  distant ^^^ (joined >>> 1) ^^^ (if joined &&& 1 = 1 then 0x9908B0DF else 0)

/-- The next state. Its words are computed in place, so later ones already see earlier ones. -/
def advance (words : Array UInt32) : Array UInt32 :=
  (List.range stateSize).foldl
    (fun words i =>
      words.setIfInBounds i
        (twist (wordAt words i) (wordAt words (i + 1)) (wordAt words (i + stateShift))))
    words

/-- Scramble a word of the state into a number. -/
def temper (word : UInt32) : UInt32 :=
  let a := word ^^^ (word >>> 11)
  let b := a ^^^ ((a <<< 7) &&& 0x9D2C5680)
  let c := b ^^^ ((b <<< 15) &&& 0xEFC60000)
  c ^^^ (c >>> 18)

/-- The next number. -/
def next (t : Twister) : UInt32 × Twister :=
  let t := if t.used < stateSize then t else ⟨advance t.words, 0⟩
  (temper (t.words.getD t.used 0), { t with used := t.used + 1 })

end Twister

end ChipEight.Random
