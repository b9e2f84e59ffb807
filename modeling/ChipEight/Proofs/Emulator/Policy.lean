import ChipEight.Proofs.Emulator.Run

/-!
# Invalid words and the policy about them

A step of an emulator is a cycle of its machine, except that a lenient emulator goes past a word
that stands for no instruction and notes it.

**Theorem (`step_policy`).** A step that is stopped leaves the emulator as it was, unless it is
lenient and the invalid word is the last one of memory. A step that is not stopped notes a word if
and only if it went past one; then it notes exactly that one, moves the program counter by two and
changes nothing else.

The exception is real (`step_atLastWord`): the note is taken before it is known whether there is
anything to go on at, so at the last word of memory the step is stopped and the note stays, though
no word was skipped.
-/

namespace ChipEight.Emulator

/-! ## The ways a step can go -/

/-- The emulator with a note of a word at the program counter. -/
def noted (e : Emulator) (word : UInt16) : Emulator :=
  { e with skipped := e.skipped.push (e.machine.registers.pc, word) }

/-- The emulator after it went past a word. -/
def pastWord (e : Emulator) (word : UInt16) : Emulator :=
  { e.noted word with machine := e.machine.moveTo (e.machine.registers.pc + 2) }

/-- How a step ends with a result. -/
inductive Steps (e : Emulator) : Option Instruction → Emulator → Prop
  | cycle {result : Option Instruction} {m : Machine}
      (cycles : Machine.Cycles e.machine result m) : Steps e result { e with machine := m }
  /-- A lenient emulator goes past an invalid word. -/
  | skip {word : UInt16} (lenient : e.strict = false) (unknown : e.machine.AtUnknown word)
      (inside : e.machine.registers.pc + 2 < memorySize) : Steps e none (e.pastWord word)

/-- How a step is stopped. -/
inductive Fails (e : Emulator) : Fault → Emulator → Prop
  /-- The machine is stopped, and the policy says nothing about its fault. -/
  | fatal {fault : Fault} (stops : Machine.Stops e.machine fault)
      (fatal : e.strict = true ∨ ∀ pc word, fault ≠ .invalidOpcode pc word) : Fails e fault e
  /-- A lenient emulator cannot go past the last word of memory. -/
  | lastWord {word : UInt16} (lenient : e.strict = false) (unknown : e.machine.AtUnknown word)
      (outside : memorySize ≤ e.machine.registers.pc + 2) :
      Fails e (.programCounter (e.machine.registers.pc + 2)) (e.noted word)

section Step

variable {e e' : Emulator} {result : Option Instruction} {fault : Fault} {word : UInt16}

theorem cycle_of_atUnknown (hsize : e.machine.memory.size = memorySize)
    (h : e.machine.AtUnknown word) :
    Machine.cycle e.machine = .error (.invalidOpcode e.machine.registers.pc word) e.machine :=
  (Machine.stops_invalidOpcode_iff.2 ⟨rfl, h⟩).cycle_eq hsize

theorem skipWord_eq (m : Machine) :
    Machine.skipWord m = match Machine.goFault? (m.registers.pc + 2) with
      | some fault => .error fault m
      | none => .ok () (m.moveTo (m.registers.pc + 2)) :=
  Machine.goTo_eq (m.registers.pc + 2)

theorem Steps.step_eq (hsize : e.machine.memory.size = memorySize) (h : Steps e result e') :
    Emulator.step e = .ok result e' := by
  cases h with
  | cycle cycles => exact step_of_ok cycles.cycle_eq
  | skip lenient unknown inside =>
    rw [step_of_lenient (cycle_of_atUnknown hsize unknown) lenient, skipWord_eq,
      Machine.goFault?_eq_none.2 inside]
    rfl

theorem Fails.step_eq (hsize : e.machine.memory.size = memorySize) (h : Fails e fault e') :
    Emulator.step e = .error fault e' := by
  cases h with
  | fatal stops fatal => exact step_of_fatal (stops.cycle_eq hsize) fatal
  | lastWord lenient unknown outside =>
    rw [step_of_lenient (cycle_of_atUnknown hsize unknown) lenient, skipWord_eq,
      Machine.goFault?_eq_some.2 ⟨outside, rfl⟩]
    rfl

theorem steps_or_fails (e : Emulator) :
    (∃ result e', Steps e result e') ∨ ∃ fault e', Fails e fault e' := by
  rcases Machine.cycles_or_stops e.machine with ⟨result, m, hcycles⟩ | ⟨fault, hstops⟩
  · exact .inl ⟨result, _, .cycle hcycles⟩
  · by_cases hfatal : e.strict = true ∨ ∀ pc word, fault ≠ .invalidOpcode pc word
    · exact .inr ⟨fault, e, .fatal hstops hfatal⟩
    · obtain ⟨hlenient, pc, word, rfl⟩ := lenient_of_not_fatal hfatal
      obtain ⟨-, hunknown⟩ := Machine.stops_invalidOpcode_iff.1 hstops
      by_cases hinside : e.machine.registers.pc + 2 < memorySize
      · exact .inl ⟨none, _, .skip hlenient hunknown hinside⟩
      · exact .inr ⟨_, _, .lastWord hlenient hunknown (by omega)⟩

theorem step_ok_iff (hsize : e.machine.memory.size = memorySize) :
    Emulator.step e = .ok result e' ↔ Steps e result e' := by
  constructor
  · intro h
    rcases steps_or_fails e with ⟨result', e'', hsteps⟩ | ⟨fault, e'', hfails⟩
    · rw [hsteps.step_eq hsize] at h
      cases h
      exact hsteps
    · rw [hfails.step_eq hsize] at h
      cases h
  · exact Steps.step_eq hsize

theorem step_error_iff (hsize : e.machine.memory.size = memorySize) :
    Emulator.step e = .error fault e' ↔ Fails e fault e' := by
  constructor
  · intro h
    rcases steps_or_fails e with ⟨result, e'', hsteps⟩ | ⟨fault', e'', hfails⟩
    · rw [hsteps.step_eq hsize] at h
      cases h
    · rw [hfails.step_eq hsize] at h
      cases h
      exact hfails
  · exact Fails.step_eq hsize

end Step

/-! ## The policy -/

/-- Whether an emulator is about to go past a word instead of being stopped by it. -/
def Passes (e : Emulator) (word : UInt16) : Prop :=
  e.strict = false ∧ e.machine.AtUnknown word

/-- There is something after an invalid word unless it is the last one of memory. -/
theorem inside_or_lastWord {m : Machine} {word : UInt16} (hsize : m.memory.size = memorySize)
    (h : m.AtUnknown word) :
    m.registers.pc + 2 < memorySize ∧ m.registers.pc ≠ 0xFFE ∨
      memorySize ≤ m.registers.pc + 2 ∧ m.registers.pc = 0xFFE := by
  have hrange := (Memory.readWord_eq_ok.1 h.2.1).1.2
  rw [hsize] at hrange
  unfold memorySize at *
  omega

/-- **What a step notes.** A step that is stopped changes nothing, except when a lenient emulator is
at an invalid word that is the last one of memory. A step that is not stopped notes something
exactly if it went past an invalid word, and all it does then is to note that word and to move on by
two. -/
theorem step_policy {e : Emulator} (he : e.Reachable) :
    (∀ fault e', step e = .error fault e' →
      e' = e ∨ e.machine.registers.pc = 0xFFE ∧ ∃ word, e.Passes word) ∧
    (∀ result e', step e = .ok result e' →
      (e.skipped.size < e'.skipped.size ↔ ∃ word, e.Passes word) ∧
        ((¬ ∃ word, e.Passes word) → e'.skipped = e.skipped)) ∧
    ∀ word, e.Passes word →
      step e = if e.machine.registers.pc = 0xFFE
        then .error (.programCounter 0x1000) (e.noted word)
        else .ok none (e.pastWord word) := by
  have hsize : e.machine.memory.size = memorySize := he.machine.sound.memory_size
  refine ⟨fun fault e' h => ?_, fun result e' h => ?_, fun word h => ?_⟩
  · cases (step_error_iff hsize).1 h with
    | fatal _ _ => exact .inl rfl
    | lastWord lenient unknown outside =>
      rcases inside_or_lastWord hsize unknown with ⟨hinside, -⟩ | ⟨-, hlast⟩
      · omega
      · exact .inr ⟨hlast, _, lenient, unknown⟩
  · cases (step_ok_iff hsize).1 h with
    | cycle cycles =>
      -- A cycle that is not stopped was not at an invalid word.
      have hnone : ¬ ∃ word, e.Passes word := by
        rintro ⟨word, -, hunknown⟩
        have hstops := cycle_of_atUnknown hsize hunknown
        rw [cycles.cycle_eq] at hstops
        cases hstops
      exact ⟨iff_of_false (Nat.lt_irrefl _) hnone, fun _ => rfl⟩
    | skip lenient unknown inside =>
      have hpasses : ∃ word, e.Passes word := ⟨_, lenient, unknown⟩
      refine ⟨iff_of_true ?_ hpasses, fun hnone => absurd hpasses hnone⟩
      show e.skipped.size < (e.skipped.push _).size
      rw [Array.size_push]
      omega
  · obtain ⟨lenient, unknown⟩ := h
    -- Only at the last word is there nothing after it to go on at.
    rcases inside_or_lastWord hsize unknown with ⟨hinside, hpc⟩ | ⟨houtside, hpc⟩
    · rw [if_neg hpc, (Steps.skip lenient unknown hinside).step_eq hsize]
    · rw [if_pos hpc, (Fails.lastWord lenient unknown houtside).step_eq hsize, hpc]
      rfl

/-- A lenient emulator into which a program was loaded. -/
def lenientWith (program : List UInt8) : Emulator :=
  afterAll
    { machine := Machine.fresh (.ofBytes []) {}, cpuRate := 600, timerRate := 60, strict := false,
      skipped := #[], frames := 0, programSize := 0 }
    [.load program programBase]

theorem reachable_lenientWith (program : List UInt8) : (lenientWith program).Reachable :=
  ⟨600, 60, false, .ofBytes [], {}, _, [.load program programBase], rfl, rfl⟩

/-- A lenient emulator goes past a word that is not the last one of memory. -/
theorem step_policy_lenient :
    (lenientWith [0x01, 0x23]).Reachable ∧ (lenientWith [0x01, 0x23]).Passes 0x0123 ∧
      step (lenientWith [0x01, 0x23]) = .ok none ((lenientWith [0x01, 0x23]).pastWord 0x0123) := by
  have hreachable := reachable_lenientWith [0x01, 0x23]
  have hword : (lenientWith [0x01, 0x23]).machine.memory.readWord programBase = .ok 0x0123 :=
    Memory.readWord_put Memory.size_bytes_loadFont_blank (by decide) (by decide)
  have hpasses : (lenientWith [0x01, 0x23]).Passes 0x0123 := ⟨rfl, rfl, hword, by decide⟩
  have hpc : ¬ (lenientWith [0x01, 0x23]).machine.registers.pc = 0xFFE := by decide
  have hstep := (step_policy hreachable).2.2 0x0123 hpasses
  rw [if_neg hpc] at hstep
  exact ⟨hreachable, hpasses, hstep⟩

theorem after_step_of_cycles {e : Emulator} {result : Option Instruction} {m : Machine}
    (h : Machine.Cycles e.machine result m) : e.after .step = { e with machine := m } := by
  show leftBy step e = _
  rw [leftBy, step_of_ok h.cycle_eq]

/-- A lenient emulator that jumped to the last word of memory, where no program put anything. -/
def atLastWord : Emulator := (lenientWith [0x1F, 0xFE]).after .step

theorem atLastWord_eq : atLastWord =
    { lenientWith [0x1F, 0xFE] with
      machine := (lenientWith [0x1F, 0xFE]).machine.afterWord 0x1FFE } := by
  have hword : (lenientWith [0x1F, 0xFE]).machine.memory.readWord programBase = .ok 0x1FFE :=
    Memory.readWord_put Memory.size_bytes_loadFont_blank (by decide) (by decide)
  exact after_step_of_cycles (.word rfl hword (by decide))

theorem readWord_atLastWord : atLastWord.machine.memory.readWord 0xFFE = .ok 0 := by
  have hmemory : atLastWord.machine.memory =
      (Memory.blank memorySize).loadFont.put programBase [0x1F, 0xFE] := by
    rw [atLastWord_eq]
    rfl
  have hbyte (k : Nat) (hk : programBase.toNat + 2 ≤ k) :
      atLastWord.machine.memory.byteAt k = 0 := by
    have hfit : programBase.toNat + [(0x1F : UInt8), 0xFE].length ≤
        (Memory.blank memorySize).loadFont.bytes.size := by
      rw [Memory.size_bytes_loadFont_blank]
      decide
    have hfont : font.length ≤ programBase.toNat + 2 := by decide
    rw [hmemory, Memory.byteAt_put_of_outside hfit (.inr hk), Memory.byteAt_loadFont (by omega),
      Memory.byteAt_blank]
  have hsize : atLastWord.machine.memory.size = memorySize := by rw [hmemory]; rfl
  refine Memory.readWord_eq_ok.2 ⟨⟨by decide, by rw [hsize]; decide⟩, ?_⟩
  rw [Memory.word, hbyte _ (by decide), hbyte _ (by decide)]
  rfl

/-- **At the last word of memory a step is stopped and leaves a note all the same.** -/
theorem step_atLastWord :
    atLastWord.Reachable ∧ atLastWord.skipped = #[] ∧
      ∃ e', step atLastWord = .error (.programCounter 0x1000) e' ∧
        e'.skipped = #[(0xFFE, 0)] ∧ e' ≠ atLastWord := by
  have hreachable : atLastWord.Reachable := (reachable_lenientWith [0x1F, 0xFE]).after .step
  have hpc : atLastWord.machine.registers.pc = 0xFFE := by
    rw [atLastWord_eq]
    decide
  have hskipped : atLastWord.skipped = #[] := by
    rw [atLastWord_eq]
    rfl
  have hunknown : atLastWord.machine.AtUnknown 0 := by
    refine ⟨?_, ?_, by decide⟩
    · rw [atLastWord_eq]
      rfl
    · rw [hpc]
      exact readWord_atLastWord
  have hfails : Fails atLastWord (.programCounter 0x1000) (atLastWord.noted 0) := by
    have hlenient : atLastWord.strict = false := by
      rw [atLastWord_eq]
      rfl
    have hlast := Fails.lastWord hlenient hunknown (by rw [hpc]; decide)
    rwa [hpc] at hlast
  have hnote : (atLastWord.noted 0).skipped = #[(0xFFE, 0)] := by
    rw [noted, hskipped, hpc]
    rfl
  have hsize := hreachable.machine.sound.memory_size
  refine ⟨hreachable, hskipped, _, hfails.step_eq hsize, hnote, fun hsame => ?_⟩
  rw [hsame, hskipped] at hnote
  cases hnote

end ChipEight.Emulator
