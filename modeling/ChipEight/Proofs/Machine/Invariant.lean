import ChipEight.Proofs.Machine.Run

/-!
# The invariant of a machine

**Theorem (`bounds_afterAll`).** Whatever is called on a machine that was just switched on, in any
order and with any arguments, refused calls included: the program counter, the index register, the
call stack, memory and the screen keep to their bounds, the latch of the keypad listens exactly
while the machine waits for a key, and it keeps no press unless it listens.

The proof is an induction over the calls with the invariant `Sound`. The bounds lean on each other:
a return address is small enough because the call was fetched from where it stands, and the program
counter stays in memory because every way to move it is checked. Besides the bounds themselves
`Sound` says that the bounds of memory and the sides of the screen stay what they are, since
clearing the screen makes its cells anew from its sides.
-/

namespace ChipEight.Machine

/-! ## The invariant -/

/-- The first value that the index register does not reach. -/
def indexBound (variant : Variant) : Int := if variant.indexWrap then 0x1000 else 0x10000

/-- What is true of a machine after any calls. -/
structure Sound (m : Machine) : Prop where
  pc_nonneg : 0 ≤ m.registers.pc
  pc_lt : m.registers.pc < memorySize
  index_nonneg : 0 ≤ m.registers.index
  index_lt : m.registers.index < indexBound m.variant
  depth_le : m.registers.stack.length ≤ stackDepth
  /-- A return address leaves room for the word of its call. -/
  return_lt : ∀ address ∈ m.registers.stack, address.toNat + 1 < memorySize
  memory_size : m.memory.size = memorySize
  bytes_size : m.memory.bytes.size = memorySize
  width_eq : m.screen.width = screenWidth
  height_eq : m.screen.height = screenHeight
  cells_size : m.screen.cells.size = screenWidth * screenHeight
  armed_eq : m.keypad.armed = m.waiting
  armed_of_pending : m.keypad.pending ≠ none → m.keypad.armed = true

theorem le_indexBound (variant : Variant) : 0x1000 ≤ indexBound variant := by
  unfold indexBound
  split <;> decide

theorem indexBound_eq (variant : Variant) :
    indexBound variant = (if variant.indexWrap then 0xFFF else 0xFFFF) + 1 := by
  unfold indexBound
  split <;> rfl

theorem sound_fresh (random : Random.Source) (variant : Variant) :
    (fresh random variant).Sound where
  pc_nonneg := by
    show (0 : Int) ≤ programBase
    decide
  pc_lt := by
    show programBase < memorySize
    decide
  index_nonneg := Int.le_refl 0
  index_lt := by
    show 0 < indexBound variant
    have h := le_indexBound variant
    omega
  depth_le := Nat.zero_le stackDepth
  return_lt := fun address h => absurd h List.not_mem_nil
  memory_size := rfl
  bytes_size := Memory.size_bytes_loadFont_blank
  width_eq := rfl
  height_eq := rfl
  cells_size := by
    show (Framebuffer.darkCells screenWidth screenHeight).size = _
    simp [Framebuffer.darkCells, screenWidth, screenHeight]
  armed_eq := rfl
  armed_of_pending := fun h => absurd rfl h

/-! ## What instructions do to it -/

/-- An operation between registers changes general registers only. -/
theorem operate_eq (r : Registers) (variant : Variant) (op : Arith) (x y : Register) :
    ∃ v, r.operate variant op x y = { r with v } := by
  unfold Registers.operate
  dsimp only
  split
  · exact ⟨_, rfl⟩
  · exact ⟨_, rfl⟩

theorem index_operate (r : Registers) (variant : Variant) (op : Arith) (x y : Register) :
    (r.operate variant op x y).index = r.index := by
  obtain ⟨v, hv⟩ := operate_eq r variant op x y
  rw [hv]

theorem stack_operate (r : Registers) (variant : Variant) (op : Arith) (x y : Register) :
    (r.operate variant op x y).stack = r.stack := by
  obtain ⟨v, hv⟩ := operate_eq r variant op x y
  rw [hv]

theorem indexPlus_bounds (m : Machine) (value : UInt8) :
    0 ≤ m.indexPlus value ∧ m.indexPlus value < indexBound m.variant := by
  unfold indexPlus indexBound
  split <;> omega

namespace Sound

variable {m : Machine}

theorem return_lt_call (h : m.Sound) (hpc : m.registers.pc + 1 < memorySize) :
    ∀ address ∈ wrapWord m.registers.pc :: m.registers.stack,
      address.toNat + 1 < memorySize := by
  intro address hmem
  rcases List.mem_cons.1 hmem with rfl | hmem
  · have h0 := h.pc_nonneg
    have h1 : m.registers.pc < 0x10000 := by
      unfold memorySize at hpc
      omega
    rw [toNat_wrapWord h0 h1]
    omega
  · exact h.return_lt address hmem

theorem setGeneral (h : m.Sound) (v : Vector UInt8 16) :
    ({ m with registers := { m.registers with v } } : Machine).Sound :=
  { h with }

/-- Every index below the memory size is one that the index register may hold. -/
theorem setIndex (h : m.Sound) {index : Int} (h0 : 0 ≤ index) (h1 : index < 0x1000) :
    ({ m with registers := { m.registers with index } } : Machine).Sound :=
  { h with
    index_nonneg := h0
    index_lt := Int.lt_of_lt_of_le h1 (le_indexBound m.variant) }

theorem written (h : m.Sound) (values : List UInt8) : (m.written values).Sound :=
  { h with bytes_size := (Memory.size_bytes_put _ _ _).trans h.bytes_size }

theorem drawn (h : m.Sound) (x y : Register) (sprite : List UInt8) :
    (m.drawn x y sprite).Sound :=
  { h with cells_size := (Framebuffer.size_flipAll _ _).trans h.cells_size }

/-- The work of an instruction that was fetched and is not stopped keeps a machine sound. -/
theorem effect (h : m.Sound) {i : Instruction} (hpc : m.registers.pc + 1 < memorySize)
    (hwork : m.workFault? i = none) : (m.effect i).Sound := by
  cases i with
  | clear =>
    -- The cells are made anew from the sides, so the sides have to be known.
    refine { h with cells_size := ?_ }
    show (Framebuffer.darkCells m.screen.width m.screen.height).size = _
    rw [h.width_eq, h.height_eq]
    simp [Framebuffer.darkCells, screenWidth, screenHeight]
  | ret =>
    refine { h with
      depth_le := ?_, return_lt := fun address hmem => ?_ }
    · have hdepth := h.depth_le
      show m.registers.stack.tail.length ≤ stackDepth
      rw [List.length_tail]
      omega
    · exact h.return_lt address (List.mem_of_mem_tail hmem)
  | call target =>
    -- The depth is checked, but the address only fits because the call was fetched from it.
    refine { h with depth_le := ?_, return_lt := h.return_lt_call hpc }
    have hdepth := h.depth_le
    have hroom : m.registers.stack.length ≠ stackDepth := by
      intro hfull
      simp [workFault?, hfull] at hwork
    show m.registers.stack.length + 1 ≤ stackDepth
    omega
  | arith op x y =>
    obtain ⟨v, hv⟩ := operate_eq m.registers m.variant op x y
    show ({ m with registers := m.registers.operate m.variant op x y } : Machine).Sound
    rw [hv]
    exact h.setGeneral v
  | setIndex target =>
    have htarget := target.isLt
    exact h.setIndex (by omega) (by omega)
  | addIndex x =>
    obtain ⟨h0, h1⟩ := m.indexPlus_bounds (m.registers.get x)
    exact { h with index_nonneg := h0, index_lt := h1 }
  | glyph x =>
    have hindex : glyphAddress ((m.registers.get x).toNat % 16) < 0x1000 := by
      unfold glyphAddress glyphSize
      omega
    exact h.setIndex (by omega) (by omega)
  | awaitKey x => exact { h with armed_eq := rfl, armed_of_pending := fun _ => rfl }
  | draw x y rows => exact h.drawn x y _
  | decimal x => exact h.written _
  | store x => exact h.written _
  | setByte _ _ | addByte _ _ | readDelay _ | load _ => exact h.setGeneral _
  | random _ _ | setDelay _ | setSound _ => exact { h with }
  | jump _ | jumpOffset _ | skip _ | unknown _ => exact h

theorem moveTo (h : m.Sound) {target : Int} (h0 : 0 ≤ target) (h1 : target < memorySize) :
    (m.moveTo target).Sound :=
  { h with pc_nonneg := h0, pc_lt := h1 }

theorem record (h : m.Sound) (entry : TraceEntry) : (m.record entry).Sound :=
  { h with }

theorem target_nonneg (h : m.Sound) (i : Instruction) : 0 ≤ m.target i := by
  have hpc := h.pc_nonneg
  cases i with
  | skip condition =>
    show 0 ≤ m.registers.pc + (if condition.holds m then 4 else 2)
    split <;> omega
  | _ =>
    simp only [target]
    omega

theorem afterWord (h : m.Sound) {word : UInt16}
    (hword : m.memory.readWord m.registers.pc = .ok word)
    (hfree : m.fault? (Instruction.decode word) = none) : (m.afterWord word).Sound := by
  obtain ⟨hgo, hwork⟩ := fault?_eq_none.1 hfree
  -- The word was fetched, so both of its bytes are in memory.
  have hrange := (Memory.readWord_eq_ok.1 hword).1.2
  rw [h.memory_size] at hrange
  have heffect := h.effect (by omega) hwork
  exact (heffect.moveTo (h.target_nonneg _) (goFault?_eq_none.1 hgo)).record _

theorem afterKey (h : m.Sound) {key : Key} (hpending : m.keypad.pending = some key)
    (hinside : m.registers.pc + 2 < memorySize) : (m.afterKey key).Sound := by
  have hpc := h.pc_nonneg
  refine { h with
    pc_nonneg := ?_, pc_lt := hinside, armed_eq := ?_, armed_of_pending := fun hne => ?_ }
  · show 0 ≤ m.registers.pc + 2
    omega
  · show m.keypad.take.2.armed = false
    rw [Keypad.take_of_pending hpending]
  -- The latch is empty after the key was taken, so nothing is pending.
  · refine absurd ?_ hne
    show m.keypad.take.2.pending = none
    rw [Keypad.take_of_pending hpending]

/-! ## What calls do to it -/

theorem cycles (h : m.Sound) {m' : Machine} {result : Option Instruction}
    (hc : Cycles m result m') : m'.Sound := by
  cases hc with
  | idle _ _ => exact h
  | key _ pending inside => exact h.afterKey pending inside
  | word _ fetched free => exact h.afterWord fetched free

theorem press (h : m.Sound) (key : Key) :
    ({ m with keypad := m.keypad.press key } : Machine).Sound := by
  refine { h with armed_of_pending := fun hne => ?_ }
  show m.keypad.armed = true
  -- A press is only latched while the latch is armed and empty.
  by_cases hlisten : m.keypad.armed ∧ m.keypad.pending = none
  · exact hlisten.1
  · refine h.armed_of_pending ?_
    intro hnone
    refine hne ?_
    show (if m.keypad.armed ∧ m.keypad.pending = none then some key else m.keypad.pending) = none
    rw [if_neg hlisten, hnone]

/-- Every call keeps a machine sound, also one that is refused. -/
theorem after (h : m.Sound) (call : Call) : (m.after call).Sound := by
  cases call with
  | load program base =>
    rw [after_load]
    split
    · exact h
    · exact { h with bytes_size := (Memory.size_bytes_put _ _ _).trans h.bytes_size }
  | cycle =>
    rcases cycles_or_stops m with ⟨result, m', hc⟩ | ⟨fault, hs⟩
    · rw [after_cycle_of_cycles hc]
      exact h.cycles hc
    · rw [after_cycle_of_stops h.memory_size hs]
      exact h
  | tick => exact { h with }
  | keyDown code =>
    show (m.orSame (m.keyDown code)).Sound
    unfold keyDown
    cases Key.ofCode code with
    | ok key => exact h.press key
    | error fault => exact h
  | keyUp code =>
    show (m.orSame (m.keyUp code)).Sound
    unfold keyUp
    cases Key.ofCode code with
    | ok key => exact { h with }
    | error fault => exact h
  | skipWord =>
    show (leftBy Machine.skipWord m).Sound
    have hpc := h.pc_nonneg
    rw [leftBy_skipWord]
    split
    · exact h.moveTo (by omega) (by assumption)
    · exact h
  | consume => exact { h with }
  | trace on => exact { h with }

theorem afterAll (h : m.Sound) (calls : List Call) : (m.afterAll calls).Sound := by
  induction calls generalizing m with
  | nil => exact h
  | cons call rest ih => exact ih (h.after call)

theorem afterEvents (h : m.Sound) (events : List Event) : (m.afterEvents events).Sound :=
  h.afterAll (events.map Event.call)

end Sound

/-! ## The switches stay as they are -/

theorem variant_effect (m : Machine) (i : Instruction) : (m.effect i).variant = m.variant := by
  cases i <;> simp only [effect, drawn, written]

theorem Cycles.variant_eq {m m' : Machine} {result : Option Instruction}
    (h : Cycles m result m') : m'.variant = m.variant := by
  cases h with
  | idle _ _ => rfl
  | key _ _ _ => rfl
  | word _ _ _ => exact variant_effect m _

theorem variant_after {m : Machine} (h : m.Sound) (call : Call) :
    (m.after call).variant = m.variant := by
  rcases after_cases h.memory_size call with ⟨-, hc⟩ | ⟨-, _, _, _, _, _, _, hafter, -, -⟩
  · exact hc.variant_eq
  · rw [hafter]

theorem variant_afterAll {m : Machine} (h : m.Sound) (calls : List Call) :
    (m.afterAll calls).variant = m.variant := by
  induction calls generalizing m with
  | nil => rfl
  | cons call rest ih => exact (ih (h.after call)).trans (variant_after h call)

/-! ## Every reachable machine -/

/-- **The invariant holds in every reachable machine.** -/
theorem Reachable.sound {m : Machine} (h : m.Reachable) : m.Sound := by
  obtain ⟨random, variant, calls, rfl⟩ := h
  exact (sound_fresh random variant).afterAll calls

/-- **The bounds of a machine.** They hold after all calls, whatever was called before. -/
theorem bounds_afterAll (random : Random.Source) (variant : Variant) (calls : List Call) :
    let m := (fresh random variant).afterAll calls
    (0 ≤ m.registers.pc ∧ m.registers.pc ≤ 0xFFF) ∧
      (∀ x, (m.registers.get x).toNat ≤ 0xFF) ∧
      (m.timers.delay.toNat ≤ 0xFF ∧ m.timers.sound.toNat ≤ 0xFF) ∧
      (0 ≤ m.registers.index ∧
        m.registers.index ≤ if variant.indexWrap then 0xFFF else 0xFFFF) ∧
      (m.registers.stack.length ≤ 16 ∧ ∀ address ∈ m.registers.calls, address.toNat ≤ 0xFFE) ∧
      (m.memory.size = 4096 ∧ m.memory.bytes.size = 4096) ∧
      m.screen.cells.size = 2048 ∧
      (m.keypad.armed = true ↔ m.waiting = true) ∧
      ∀ key, m.keypad.pending = some key → m.keypad.armed = true ∧ key.val ≤ 15 := by
  intro m
  have hstart := sound_fresh random variant
  have h : m.Sound := hstart.afterAll calls
  have hbyte : ∀ value : UInt8, value.toNat ≤ 0xFF := by
    intro value
    have hvalue := value.toNat_lt
    omega
  have hpc : m.registers.pc ≤ 0xFFF := by
    have hlt := h.pc_lt
    unfold memorySize at hlt
    omega
  -- No call changes the switches, so the bound is still the one of the start.
  have hindex : m.registers.index ≤ if variant.indexWrap then 0xFFF else 0xFFFF := by
    have hlt := h.index_lt
    rw [variant_afterAll hstart calls, indexBound_eq] at hlt
    exact Int.le_of_lt_add_one hlt
  have hcalls : ∀ address ∈ m.registers.calls, address.toNat ≤ 0xFFE := by
    intro address hmem
    have hreturn := h.return_lt address (List.mem_reverse.1 hmem)
    unfold memorySize at hreturn
    omega
  have hpress : ∀ key, m.keypad.pending = some key → m.keypad.armed = true ∧ key.val ≤ 15 := by
    intro key hkey
    have hne : m.keypad.pending ≠ none := by
      rw [hkey]
      exact Option.some_ne_none key
    have hlt := key.isLt
    exact ⟨h.armed_of_pending hne, by omega⟩
  exact ⟨⟨h.pc_nonneg, hpc⟩, fun x => hbyte _, ⟨hbyte _, hbyte _⟩, ⟨h.index_nonneg, hindex⟩,
    ⟨h.depth_le, hcalls⟩, ⟨h.memory_size, h.bytes_size⟩, h.cells_size,
    Bool.eq_iff_iff.1 h.armed_eq, hpress⟩

end ChipEight.Machine
