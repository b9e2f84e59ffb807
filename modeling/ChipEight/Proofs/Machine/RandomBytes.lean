import ChipEight.Proofs.Machine.Invariant

/-!
# Random bytes in turn

A machine takes its random bytes from a source, which is a sequence of bytes and a place in it. The
place is nowhere to be seen, so a byte that is taken too early shows only in the values that follow.

**Theorem (`random_afterAll`).** After any calls on a machine that was just switched on, the source
stands behind as many bytes as random instructions were executed. The next one that is executed gets
the byte there, under its mask. One that has no word after it is stopped and takes no byte, so that
nothing is lost by trying it again.

A call takes a byte exactly if it executes a random instruction (`random_after`); the theorem
follows by induction over the calls.
-/

namespace ChipEight

/-- Whether an instruction takes a random byte. -/
def Instruction.isRandom : Instruction → Bool
  | .random _ _ => true
  | _ => false

namespace Random.Source

/-! ## The bytes of a source -/

/-- The source after a number of bytes were taken from it. -/
def advanced : Source → Nat → Source
  | s, 0 => s
  | s, count + 1 => s.next.2.advanced count

/-- The byte of a source at a place, counted from zero. -/
def byte (s : Source) (k : Nat) : UInt8 := (s.advanced k).next.1

theorem advanced_add (s : Source) (first second : Nat) :
    s.advanced (first + second) = (s.advanced first).advanced second := by
  induction first generalizing s with
  | zero => rw [Nat.zero_add, advanced]
  | succ first ih => rw [Nat.succ_add, advanced, advanced, ih]

theorem advanced_cycle (bytes : Array UInt8) (used count : Nat) :
    (cycle bytes used).advanced count = cycle bytes (used + count) := by
  induction count generalizing used with
  | zero => rfl
  | succ count ih =>
    show (cycle bytes (used + 1)).advanced count = _
    rw [ih, Nat.add_assoc, Nat.add_comm 1]

/-- A list of bytes is gone through in a circle. -/
theorem byte_ofBytes (bytes : List UInt8) (k : Nat) :
    (ofBytes bytes).byte k = bytes.getD (k % bytes.length) 0 := by
  rw [byte, ofBytes, advanced_cycle, Nat.zero_add]
  simp [next]

end Random.Source

namespace Machine

variable {m : Machine}

/-! ## One call -/

theorem random_effect {i : Instruction} (hrandom : ∀ x mask, i ≠ .random x mask) :
    (m.effect i).random = m.random := by
  cases i with
  | random x mask => exact absurd rfl (hrandom x mask)
  | _ => simp only [effect, drawn, written]

/-- The number of random instructions that a call executes, one at most. -/
def rolls (m : Machine) (call : Call) : Nat := (m.ran? call).toList.countP Instruction.isRandom

theorem random_cycles {m' : Machine} {result : Option Instruction} (h : Cycles m result m') :
    m'.random = m.random.advanced (result.toList.countP Instruction.isRandom) := by
  cases h with
  | idle _ _ | key _ _ _ => rfl
  | @word word _ _ _ =>
    show (m.effect (Instruction.decode word)).random = _
    rw [Option.toList_some, List.countP_singleton]
    -- Only a random instruction is counted, and only its work takes a byte.
    cases hi : Instruction.decode word with
    | random x mask => rfl
    | _ => exact random_effect nofun

/-- **A call takes as many bytes as it executes random instructions.** -/
theorem random_after (hsize : m.memory.size = memorySize) (call : Call) :
    (m.after call).random = m.random.advanced (m.rolls call) := by
  unfold rolls
  rcases after_cases hsize call with ⟨-, hc⟩ | ⟨hran, _, _, _, _, _, _, hafter, -, -⟩
  · exact random_cycles hc
  · rw [hafter, hran]
    rfl

/-- A random instruction that is executed gets the next byte. -/
theorem get_of_random (hsize : m.memory.size = memorySize) {call : Call} {x : Register}
    {mask : UInt8} (h : m.ran? call = some (.random x mask)) :
    (m.after call).registers.get x = m.random.byte 0 &&& mask := by
  obtain ⟨-, hc⟩ := cycles_of_ran? hsize h
  obtain ⟨-, -, hget, -⟩ := work_of_cycle hsize hc.cycle_eq
  rw [hget]
  exact Registers.get_set_self _ _ _

/-- A random instruction at the end of memory is stopped. -/
theorem stops_random {word : UInt16} {x : Register} {mask : UInt8} (hwait : m.waiting = false)
    (hfetch : m.memory.readWord m.registers.pc = .ok word)
    (hdecode : Instruction.decode word = .random x mask) (hend : memorySize ≤ m.registers.pc + 2) :
    Stops m (.programCounter (m.registers.pc + 2)) := by
  refine .word hwait hfetch ?_
  have hgo : goFault? (m.registers.pc + 2) = some (.programCounter (m.registers.pc + 2)) :=
    goFault?_eq_some.2 ⟨hend, rfl⟩
  rw [hdecode]
  show (goFault? (m.registers.pc + 2)).or none = _
  rw [hgo, Option.some_or]

/-! ## Runs -/

/-- The number of random instructions that calls execute. -/
def rollsAll (m : Machine) : List Call → Nat
  | [] => 0
  | call :: rest => m.rolls call + (m.after call).rollsAll rest

theorem rollsAll_append (m : Machine) (first second : List Call) :
    m.rollsAll (first ++ second) = m.rollsAll first + (m.afterAll first).rollsAll second := by
  induction first generalizing m with
  | nil => exact (Nat.zero_add _).symm
  | cons call rest ih =>
    rw [List.cons_append, rollsAll, rollsAll, ih, Nat.add_assoc]
    rfl

theorem Cycles.rollsAll_cons {m' : Machine} {result : Option Instruction} (h : Cycles m result m')
    (rest : List Call) :
    m.rollsAll (.cycle :: rest) = result.toList.countP Instruction.isRandom + m'.rollsAll rest := by
  rw [rollsAll, rolls, ran?_of_cycles h, after_cycle_of_cycles h]

theorem Sound.random_afterAll_eq (h : m.Sound) (calls : List Call) :
    (m.afterAll calls).random = m.random.advanced (m.rollsAll calls) := by
  induction calls generalizing m with
  | nil => rfl
  | cons call rest ih =>
    show ((m.after call).afterAll rest).random = _
    rw [ih (h.after call), random_after h.memory_size, rollsAll, Random.Source.advanced_add]

/-- **Random bytes in turn.** -/
theorem random_afterAll (random : Random.Source) (variant : Variant) (calls : List Call) :
    let start := fresh random variant
    let m := start.afterAll calls
    m.random = random.advanced (start.rollsAll calls) ∧
      (∀ x mask, m.ran? .cycle = some (.random x mask) →
        (m.after .cycle).registers.get x = random.byte (start.rollsAll calls) &&& mask ∧
          start.rollsAll (calls ++ [.cycle]) = start.rollsAll calls + 1) ∧
      ∀ word x mask, m.waiting = false → m.memory.readWord m.registers.pc = .ok word →
        Instruction.decode word = .random x mask → memorySize ≤ m.registers.pc + 2 →
        m.answer .cycle = .stopped (.programCounter (m.registers.pc + 2)) ∧
          m.after .cycle = m ∧ start.rollsAll (calls ++ [.cycle]) = start.rollsAll calls := by
  intro start m
  have hstart : start.Sound := sound_fresh random variant
  have hsize : m.memory.size = memorySize := (hstart.afterAll calls).memory_size
  have hplace : m.random = random.advanced (start.rollsAll calls) := hstart.random_afterAll_eq calls
  have hrolls : start.rollsAll (calls ++ [.cycle]) = start.rollsAll calls + m.rolls .cycle :=
    rollsAll_append start calls [.cycle]
  refine ⟨hplace, fun x mask hran => ⟨?_, ?_⟩, fun word x mask hwait hfetch hdecode hend => ?_⟩
  · rw [get_of_random hsize hran, hplace]
    rfl
  · rw [hrolls, rolls, hran]
    rfl
  · have hs := stops_random hwait hfetch hdecode hend
    refine ⟨answer_cycle_of_stops hsize hs, after_cycle_of_stops hsize hs, ?_⟩
    rw [hrolls, rolls, ran?_of_stops hsize hs]
    rfl

/-! ## A byte that is kept -/

/-- The machine with another word at the end of memory. -/
def withLastWord (m : Machine) (high low : UInt8) : Machine :=
  { m with memory := m.memory.put 0xFFE [high, low] }

namespace Sound

variable (h : m.Sound) (high low : UInt8)

include h

theorem after_lastWord : m.after (.load [high, low] 0xFFE) = m.withLastWord high low := by
  rw [after_load, h.memory_size]
  rfl

theorem withLastWord : (m.withLastWord high low).Sound := by
  rw [← h.after_lastWord]
  exact h.after _

theorem readWord_lastWord :
    (m.withLastWord high low).memory.readWord 0xFFE = .ok (Word.ofBytes high low) := by
  have hsize := h.memory_size
  refine Memory.readWord_put (h.bytes_size.trans hsize.symm) (by decide) ?_
  rw [hsize]
  decide

/-- The words before the last one do not change with it. -/
theorem readWord_withLastWord {address : Int} {word : UInt16} (hbefore : address.toNat + 2 ≤ 0xFFE)
    (hword : m.memory.readWord address = .ok word) :
    (m.withLastWord high low).memory.readWord address = .ok word := by
  refine Memory.readWord_put_of_outside ?_ (.inl hbefore) hword
  rw [h.bytes_size]
  exact (by decide : 0xFFE + 2 ≤ memorySize)

end Sound

/-- A program takes a random byte and goes on to the last word of memory, which wants another. -/
def toLastWord : List Call :=
  [.load [0xC0, 0x0F, 0x1F, 0xFE] programBase, .load [0xC1, 0xF0] 0xFFE, .cycle, .cycle]

/-- After the fault the last word is made a jump back to the start of the program. -/
def andBack : List Call := toLastWord ++ [.cycle, .load [0x12, 0x00] 0xFFE, .cycle]

/-- A machine that was just switched on, with two random bytes to come. -/
def withTwoBytes : Machine := fresh (.ofBytes [0xAB, 0xCD]) {}

/-- The machine with the program. -/
def withProgram : Machine :=
  { withTwoBytes with memory := withTwoBytes.memory.put programBase [0xC0, 0x0F, 0x1F, 0xFE] }

/-- The machine before the last word. -/
def atLastWord : Machine := ((withProgram.withLastWord 0xC1 0xF0).afterWord 0xC00F).afterWord 0x1FFE

/-- The machine that went back from there. -/
def backAtStart : Machine := (atLastWord.withLastWord 0x12 0x00).afterWord 0x1200

theorem after_program :
    withTwoBytes.after (.load [0xC0, 0x0F, 0x1F, 0xFE] programBase) = withProgram := by
  rw [after_load, if_neg (by decide)]
  rfl

theorem sound_withProgram : withProgram.Sound := by
  rw [← after_program]
  exact (sound_fresh _ _).after _

theorem readWord_withProgram {high low : UInt8} {rest : List UInt8} (k : Nat)
    (hk : ([0xC0, 0x0F, 0x1F, 0xFE] : List UInt8).drop k = high :: low :: rest) :
    withProgram.memory.readWord (programBase + k) = .ok (Word.ofBytes high low) :=
  Memory.readWord_put_drop Memory.size_bytes_loadFont_blank (by decide) (by decide) hk

/-- The calls take the machine to the last word, and one random byte is taken on the way. -/
theorem leads_toLastWord :
    withTwoBytes.afterAll toLastWord = atLastWord ∧ withTwoBytes.rollsAll toLastWord = 1 ∧
      atLastWord.Sound := by
  have hsound := sound_withProgram
  have hfirst := hsound.readWord_withLastWord 0xC1 0xF0 (by decide) (readWord_withProgram 0 rfl)
  have hsecond := hsound.readWord_withLastWord 0xC1 0xF0 (by decide) (readWord_withProgram 2 rfl)
  have hdraw : Cycles (withProgram.withLastWord 0xC1 0xF0) (some (Instruction.decode 0xC00F))
      ((withProgram.withLastWord 0xC1 0xF0).afterWord 0xC00F) := .word rfl hfirst (by decide)
  have hjump : Cycles ((withProgram.withLastWord 0xC1 0xF0).afterWord 0xC00F)
      (some (Instruction.decode 0x1FFE)) atLastWord := .word rfl hsecond (by decide)
  refine ⟨?_, ?_, ((hsound.withLastWord 0xC1 0xF0).cycles hdraw).cycles hjump⟩
  · rw [toLastWord, afterAll_cons, after_program, afterAll_cons, hsound.after_lastWord,
      hdraw.afterAll_cons, hjump.afterAll_cons, afterAll_nil]
  · rw [toLastWord, rollsAll, after_program, rollsAll, hsound.after_lastWord, hdraw.rollsAll_cons,
      hjump.rollsAll_cons]
    decide

/-- Back at the start no further random byte was taken, and another one is wanted. -/
theorem leads_backAtStart :
    atLastWord.afterAll [.load [0x12, 0x00] 0xFFE, .cycle] = backAtStart ∧
      atLastWord.rollsAll [.load [0x12, 0x00] 0xFFE, .cycle] = 0 ∧
      backAtStart.ran? .cycle = some (.random 0 0x0F) := by
  have hsound := leads_toLastWord.2.2
  have hback : Cycles (atLastWord.withLastWord 0x12 0x00) (some (Instruction.decode 0x1200))
      backAtStart := .word rfl (hsound.readWord_lastWord 0x12 0x00) (by decide)
  have hfirst : backAtStart.memory.readWord programBase = .ok 0xC00F :=
    hsound.readWord_withLastWord 0x12 0x00 (by decide) <|
      sound_withProgram.readWord_withLastWord 0xC1 0xF0 (by decide) (readWord_withProgram 0 rfl)
  have hdraw : Cycles backAtStart (some (Instruction.decode 0xC00F))
      (backAtStart.afterWord 0xC00F) := .word rfl hfirst (by decide)
  refine ⟨?_, ?_, ?_⟩
  · rw [afterAll_cons, hsound.after_lastWord, hback.afterAll_cons, afterAll_nil]
  · rw [rollsAll, hsound.after_lastWord, hback.rollsAll_cons]
    decide
  · rw [ran?_of_cycles hdraw]
    decide

/-- The first byte is taken, the word at the end takes none, and the second byte is still there when
the program starts again. -/
theorem random_afterAll_andBack :
    (withTwoBytes.afterAll toLastWord).answer .cycle = .stopped (.programCounter 0x1000) ∧
      (withTwoBytes.afterAll toLastWord).after .cycle = withTwoBytes.afterAll toLastWord ∧
      withTwoBytes.rollsAll andBack = 1 ∧
      (withTwoBytes.afterAll andBack).ran? .cycle = some (.random 0 0x0F) ∧
      ((withTwoBytes.afterAll andBack).after .cycle).registers.get 0 = 0x0D := by
  obtain ⟨hthere, hone, -⟩ := leads_toLastWord
  obtain ⟨hback, hnone, hran⟩ := leads_backAtStart
  have hlast : atLastWord.memory.readWord atLastWord.registers.pc = .ok 0xC1F0 :=
    sound_withProgram.readWord_lastWord 0xC1 0xF0
  have hend := (random_afterAll (.ofBytes [0xAB, 0xCD]) {} toLastWord).2.2 0xC1F0 1 0xF0
  rw [← withTwoBytes, hthere] at hend
  obtain ⟨hanswer, hsame, hcount⟩ := hend rfl hlast (by decide) (by decide)
  have hcalls : andBack = (toLastWord ++ [.cycle]) ++ [.load [0x12, 0x00] 0xFFE, .cycle] := rfl
  have hstopped : withTwoBytes.afterAll (toLastWord ++ [.cycle]) = atLastWord := by
    rw [afterAll_append, hthere, afterAll_cons, hsame, afterAll_nil]
  have hagain : withTwoBytes.afterAll andBack = backAtStart := by
    rw [hcalls, afterAll_append, hstopped, hback]
  have hrolls : withTwoBytes.rollsAll andBack = 1 := by
    rw [hcalls, rollsAll_append, hcount, hone, hstopped, hnone]
  have hnext := (random_afterAll (.ofBytes [0xAB, 0xCD]) {} andBack).2.1 0 0x0F
  rw [← withTwoBytes, hagain, hrolls] at hnext
  rw [hthere, hagain]
  refine ⟨hanswer, hsame, hrolls, hran, (hnext hran).1.trans ?_⟩
  rw [Random.Source.byte_ofBytes]
  decide

end Machine

end ChipEight
