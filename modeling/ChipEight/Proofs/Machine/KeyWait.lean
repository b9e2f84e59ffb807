import ChipEight.Proofs.Machine.Invariant

/-!
# Waiting for a key

An instruction that waits for a key arms the latch of the keypad and stays where it is. Two parties
go on from there in any order: the machine with its cycles, and whoever ticks the timers and moves
the keys.

**Theorem (`awaitKey_protocol`).** Until a key goes down no cycle changes anything, whatever keys
were held before or are let go. The first key that goes down is the one that counts: the next cycle
puts its number into the register, goes on and ends the wait, and changes nothing else, whatever
other keys moved in between. Afterwards the keypad keeps no press until an instruction waits again.
At the end of memory there is nowhere to go on: every cycle is stopped, and wait and press stay.

The proof follows the latch. While a machine waits it stays the machine that began the wait, but for
its timers and its keypad (`Waited`); the latch moves once, from no press to the first one, and only
a cycle that takes the press moves it back.
-/

namespace ChipEight.Machine

/-! ## While the wait goes on -/

/-- Since a wait began only timers and held keys have changed, and the latch has caught
`pending`. -/
def Waited (started : Machine) (pending : Option Key) (m : Machine) : Prop :=
  ∃ timers held, m = { started with timers, keypad := { held, armed := true, pending } }

section Wait

variable {started m : Machine} {pending : Option Key} {key : Key}

namespace Waited

theorem waiting_eq (h : Waited started pending m) : m.waiting = started.waiting := by
  obtain ⟨timers, held, rfl⟩ := h
  rfl

theorem registers_eq (h : Waited started pending m) : m.registers = started.registers := by
  obtain ⟨timers, held, rfl⟩ := h
  rfl

theorem pending_eq (h : Waited started pending m) : m.keypad.pending = pending := by
  obtain ⟨timers, held, rfl⟩ := h
  rfl

theorem size_eq (h : Waited started pending m) : m.memory.size = started.memory.size := by
  obtain ⟨timers, held, rfl⟩ := h
  rfl

theorem tick (h : Waited started pending m) : Waited started pending (m.after .tick) := by
  obtain ⟨timers, held, rfl⟩ := h
  exact ⟨timers.tick, held, rfl⟩

theorem release (h : Waited started pending m) (key : Key) :
    Waited started pending (m.after (.keyUp key.val)) := by
  obtain ⟨timers, held, rfl⟩ := h
  rw [after_keyUp]
  exact ⟨timers, held.set key false, rfl⟩

/-- The first press is caught. -/
theorem press_first (h : Waited started none m) (key : Key) :
    Waited started (some key) (m.after (.keyDown key.val)) := by
  obtain ⟨timers, held, rfl⟩ := h
  rw [after_keyDown]
  exact ⟨timers, held.set key true, rfl⟩

/-- A later press is not. -/
theorem press_later (h : Waited started (some key) m) (other : Key) :
    Waited started (some key) (m.after (.keyDown other.val)) := by
  obtain ⟨timers, held, rfl⟩ := h
  rw [after_keyDown]
  exact ⟨timers, held.set other true, rfl⟩

/-! ### Cycles -/

theorem cycles_idle (hwait : started.waiting = true) (h : Waited started none m) :
    Cycles m none m :=
  .idle (h.waiting_eq.trans hwait) h.pending_eq

theorem cycles_key (hwait : started.waiting = true)
    (hinside : started.registers.pc + 2 < memorySize) (h : Waited started (some key) m) :
    Cycles m none (m.afterKey key) := by
  rw [← h.registers_eq] at hinside
  exact .key (h.waiting_eq.trans hwait) h.pending_eq hinside

theorem stops (hwait : started.waiting = true)
    (houtside : memorySize ≤ started.registers.pc + 2) (h : Waited started (some key) m) :
    Stops m (.programCounter (started.registers.pc + 2)) := by
  rw [← h.registers_eq] at houtside ⊢
  exact .key (h.waiting_eq.trans hwait) h.pending_eq houtside

/-- Taking the press changes one register, goes on and disarms the latch. -/
theorem afterKey_eq (h : Waited started (some key) m) :
    m.afterKey key = { m with
      registers :=
        { m.registers.set started.waitTarget (UInt8.ofNat key.val) with
          pc := started.registers.pc + 2 }
      keypad := { m.keypad with armed := false, pending := none }
      waiting := false } := by
  obtain ⟨timers, held, rfl⟩ := h
  rfl

theorem not_cycle (h : Waited started (some key) m) {e : Event} (he : e ≠ .cycle) :
    Waited started (some key) (m.after e.call) := by
  cases e with
  | cycle => exact absurd rfl he
  | tick => exact h.tick
  | press other => exact h.press_later other
  | release other => exact h.release other

/-! ### Runs -/

/-- Until a key goes down the wait goes on. -/
theorem without_press (hwait : started.waiting = true) (h : Waited started none m)
    {events : List Event} (hall : ∀ e ∈ events, e.isPress = false) :
    Waited started none (m.afterEvents events) := by
  refine afterEvents_induction (fun e => e.isPress = false) ?_ h hall
  intro m e he h
  cases e with
  | cycle => exact (after_cycle_of_cycles (h.cycles_idle hwait)).symm ▸ h
  | tick => exact h.tick
  | press key => cases he
  | release key => exact h.release key

/-- Between the first press and the next cycle nothing happens to the press. -/
theorem without_cycle (h : Waited started (some key) m) {events : List Event}
    (hall : ∀ e ∈ events, e ≠ .cycle) : Waited started (some key) (m.afterEvents events) :=
  afterEvents_induction (· ≠ .cycle) (fun _ _ he h => h.not_cycle he) h hall

/-- At the end of memory not even a cycle takes the press. -/
theorem at_end (hwait : started.waiting = true) (hsize : started.memory.size = memorySize)
    (houtside : memorySize ≤ started.registers.pc + 2) (h : Waited started (some key) m)
    (events : List Event) : Waited started (some key) (m.afterEvents events) := by
  refine afterEvents_induction (fun _ => True) ?_ h fun _ _ => trivial
  intro m e _ h
  -- A cycle is stopped and changes nothing; every other event only moves timers and keys.
  by_cases he : e = .cycle
  · subst he
    have hsize' : m.memory.size = memorySize := h.size_eq.trans hsize
    exact (after_cycle_of_stops hsize' (h.stops hwait houtside)).symm ▸ h
  · exact h.not_cycle he

end Waited

/-- A wait begins with the latch empty, where the instruction stands. -/
theorem waited_start {x : Register} (hsize : m.memory.size = memorySize)
    (h : cycle m = .ok (some (.awaitKey x)) started) :
    started.waiting = true ∧ started.waitTarget = x ∧
      started.registers.pc = m.registers.pc ∧ Waited started none started := by
  obtain ⟨word, -, -, hdecode, -, rfl⟩ := ((cycle_ok_iff hsize).1 h).of_some
  unfold afterWord
  rw [hdecode]
  exact ⟨rfl, rfl, rfl, m.timers, m.keypad.held, rfl⟩

/-! ## After the wait -/

theorem waiting_effect {i : Instruction} (hi : ∀ x, i ≠ .awaitKey x) :
    (m.effect i).waiting = m.waiting := by
  cases i with
  | awaitKey x => exact absurd rfl (hi x)
  | _ => simp only [effect, drawn, written]

/-- An event starts no wait unless it executes an instruction that does. -/
theorem not_waiting_after (h : m.Sound) (hwait : m.waiting = false) {e : Event}
    (hexec : ∀ x, m.executed? e ≠ some (.awaitKey x)) : (m.after e.call).waiting = false := by
  cases e with
  | cycle =>
    show (m.after .cycle).waiting = false
    rcases cycles_or_stops m with ⟨result, m', hc⟩ | ⟨fault, hs⟩
    · rw [after_cycle_of_cycles hc]
      rw [executed?_of_cycles hc] at hexec
      cases hc with
      | idle waiting _ => exact absurd waiting (by simp [hwait])
      | key waiting _ _ => rfl
      -- Only the work of an instruction that waits could start a wait.
      | @word word _ _ _ =>
        have hi : ∀ x, Instruction.decode word ≠ .awaitKey x := by
          intro x heq
          exact hexec x (congrArg some heq)
        exact (waiting_effect hi).trans hwait
    · rw [after_cycle_of_stops h.memory_size hs]
      exact hwait
  | tick => exact hwait
  | press key =>
    show (m.after (.keyDown key.val)).waiting = false
    rw [after_keyDown]
    exact hwait
  | release key =>
    show (m.after (.keyUp key.val)).waiting = false
    rw [after_keyUp]
    exact hwait

theorem not_waiting_afterEvents (h : m.Sound) (hwait : m.waiting = false) {events : List Event}
    (hexec : ∀ i ∈ m.executions events, ∀ x, i ≠ .awaitKey x) :
    (m.afterEvents events).waiting = false := by
  induction events generalizing m with
  | nil => exact hwait
  | cons e rest ih =>
    have hfirst : ∀ x, m.executed? e ≠ some (.awaitKey x) := by
      intro x heq
      have hmem : .awaitKey x ∈ m.executions (e :: rest) := by simp [executions, heq]
      exact hexec (.awaitKey x) hmem x rfl
    have hrest : ∀ i ∈ (m.after e.call).executions rest, ∀ x, i ≠ .awaitKey x := by
      intro i hmem
      exact hexec i (List.mem_append_right _ hmem)
    exact ih (h.after e.call) (not_waiting_after h hwait hfirst) hrest

/-- A machine that does not wait has nothing in its latch. -/
theorem Sound.latch_empty (h : m.Sound) (hwait : m.waiting = false) :
    m.keypad.armed = false ∧ m.keypad.pending = none := by
  have harmed : m.keypad.armed = false := h.armed_eq.trans hwait
  refine ⟨harmed, ?_⟩
  cases hpending : m.keypad.pending with
  | none => rfl
  | some key =>
    have hne : m.keypad.pending ≠ none := by
      rw [hpending]
      exact Option.some_ne_none key
    rw [h.armed_of_pending hne] at harmed
    cases harmed

end Wait

/-! ## The protocol -/

/-- **A wait for a key.** The address of the instruction that waits is `m.registers.pc`. Before the
first press come any events but presses, and between it and the next cycle any events but cycles;
at the end of memory any events at all come after the press. -/
theorem awaitKey_protocol {m started : Machine} {x : Register} (hm : m.Reachable)
    (hstart : cycle m = .ok (some (.awaitKey x)) started) {before : List Event}
    (hbefore : ∀ e ∈ before, e.isPress = false) :
    let idle := started.afterEvents before
    cycle idle = .ok none idle ∧
      ∀ (key : Key) (between : List Event),
        let pressed := idle.afterEvents (.press key :: between)
        (m.registers.pc + 2 ≤ 0xFFF → (∀ e ∈ between, e ≠ .cycle) →
          ∃ ended, cycle pressed = .ok none ended ∧
            ended = { pressed with
              registers :=
                { pressed.registers.set x (UInt8.ofNat key.val) with pc := m.registers.pc + 2 }
              keypad := { pressed.keypad with armed := false, pending := none }
              waiting := false } ∧
            ∀ later, (∀ i ∈ ended.executions later, ∀ y, i ≠ .awaitKey y) →
              (ended.afterEvents later).keypad.armed = false ∧
                (ended.afterEvents later).keypad.pending = none) ∧
        (0xFFF < m.registers.pc + 2 →
          cycle pressed = .error (.programCounter (m.registers.pc + 2)) pressed ∧
            pressed.waiting = true ∧ pressed.keypad.pending = some key) := by
  have hsound := hm.sound
  have hcycles := (cycle_ok_iff hsound.memory_size).1 hstart
  obtain ⟨hwait, htarget, hpc, hwaited⟩ := waited_start hsound.memory_size hstart
  have hstarted : started.Sound := hsound.cycles hcycles
  have hidle := hwaited.without_press hwait hbefore
  refine ⟨(hidle.cycles_idle hwait).cycle_eq, ?_⟩
  intro key between
  have hfirst := hidle.press_first key
  constructor
  -- The first press stays in the latch, because no cycle takes it.
  · intro hinside hbetween
    have hinside' : started.registers.pc + 2 < memorySize := by
      unfold memorySize
      omega
    have hpressed := hfirst.without_cycle hbetween
    have hends := hpressed.cycles_key hwait hinside'
    have hsound' := (hstarted.afterEvents before).afterEvents (.press key :: between)
    have hended := hsound'.cycles hends
    refine ⟨_, hends.cycle_eq, ?_, ?_⟩
    · rw [← htarget, ← hpc]
      exact hpressed.afterKey_eq
    · intro later hlater
      exact (hended.afterEvents later).latch_empty (not_waiting_afterEvents hended rfl hlater)
  -- Here cycles may come in between: none of them gets past the end of memory.
  · intro houtside
    have houtside' : memorySize ≤ started.registers.pc + 2 := by
      unfold memorySize
      omega
    have hpressed := hfirst.at_end hwait hstarted.memory_size houtside' between
    have hsize := hpressed.size_eq.trans hstarted.memory_size
    have hstop := hpressed.stops hwait houtside'
    rw [hpc] at hstop
    exact ⟨hstop.cycle_eq hsize, hpressed.waiting_eq.trans hwait, hpressed.pending_eq⟩

/-- A machine whose first instruction waits for a key. -/
def waiter : Machine :=
  (fresh (.ofBytes []) {}).afterAll [.load [0xF0, 0x0A] programBase]

theorem cycle_waiter :
    cycle waiter = .ok (some (.awaitKey firstRegister)) (waiter.afterWord 0xF00A) := by
  have hword : waiter.memory.readWord waiter.registers.pc = .ok 0xF00A :=
    Memory.readWord_put Memory.size_bytes_loadFont_blank (by decide) (by decide)
  have hcycles : Cycles waiter (some (Instruction.decode 0xF00A)) (waiter.afterWord 0xF00A) :=
    .word rfl hword (by decide)
  exact hcycles.cycle_eq

/-- Of three presses the first one after the instruction counts, though its key is let go. -/
theorem awaitKey_protocol_waiter :
    let before := [Event.cycle, .release (keyOf 5), .tick]
    let between := [Event.release (keyOf 7), .press (keyOf 2), .tick, .press (keyOf 9)]
    ∃ ended, cycle (((waiter.afterWord 0xF00A).afterEvents before).afterEvents
        (.press (keyOf 7) :: between)) = .ok none ended ∧
      ended.registers.get firstRegister = 7 ∧ ended.registers.pc = 0x202 := by
  intro before between
  have hm : waiter.Reachable := ⟨_, _, _, rfl⟩
  have hprotocol := awaitKey_protocol hm cycle_waiter (show ∀ e ∈ before, _ by decide)
  obtain ⟨ended, hcycle, rfl, -⟩ :=
    (hprotocol.2 (keyOf 7) between).1 (by decide) (by decide)
  exact ⟨_, hcycle, Registers.get_set_self _ _ _, rfl⟩

end ChipEight.Machine
