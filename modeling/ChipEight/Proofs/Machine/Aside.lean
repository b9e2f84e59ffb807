import ChipEight.Proofs.Machine.Invariant

/-!
# Changes that most instructions do not look at

The switches and the timers are parts of a machine that only few instructions look at, and no fault
is up to them. A change of such a part is an `Aside`: it leaves alone what faults are up to, and
what is written to the other parts may as well be written before the change.

**Theorem (`Aside.afterAll`).** Calls do the same before and after such a change, results and faults
included, if they avoid the instructions whose work notices it.

What is left to say of a change is which instructions notice it.
-/

namespace ChipEight.Machine

/-- A change of a part of machines that no fault is up to. -/
structure Aside (f : Machine → Machine) : Prop where
  waiting_eq (m : Machine) : (f m).waiting = m.waiting
  memory_eq (m : Machine) : (f m).memory = m.memory
  registers_eq (m : Machine) : (f m).registers = m.registers
  keypad_eq (m : Machine) : (f m).keypad = m.keypad
  screen_eq (m : Machine) : (f m).screen = m.screen
  withMemory (m : Machine) (memory : Memory) : { f m with memory } = f { m with memory }
  withKeypad (m : Machine) (keypad : Keypad) : { f m with keypad } = f { m with keypad }
  withScreen (m : Machine) (screen : Framebuffer) : { f m with screen } = f { m with screen }
  withTracing (m : Machine) (tracing : Bool) : { f m with tracing } = f { m with tracing }
  moveTo_eq (m : Machine) (target : Int) : (f m).moveTo target = f (m.moveTo target)
  afterKey_eq (m : Machine) (key : Key) : (f m).afterKey key = f (m.afterKey key)
  record_eq (m : Machine) (entry : TraceEntry) : (f m).record entry = f (m.record entry)
  tick_eq (m : Machine) : (f m).tick = f m.tick

/-- None of the instructions that calls execute is of a kind. -/
def Avoids (kind : Machine → Instruction → Prop) : Machine → List Call → Prop
  | _, [] => True
  | m, call :: rest =>
    (∀ i, m.ran? call = some i → ¬ kind m i) ∧ Avoids kind (m.after call) rest

theorem Avoids.cycle {kind : Machine → Instruction → Prop} {m m' : Machine} {i : Instruction}
    {rest : List Call} (hc : Cycles m (some i) m') (hnot : ¬ kind m i)
    (hrest : Avoids kind m' rest) : Avoids kind m (.cycle :: rest) := by
  refine ⟨fun ran hran => ?_, ?_⟩
  · rw [ran?_of_cycles hc] at hran
    cases hran
    exact hnot
  · rwa [after_cycle_of_cycles hc]

namespace Aside

variable {f : Machine → Machine} (hf : Aside f) {m m' : Machine} {result : Option Instruction}
  {fault : Fault}

include hf

/-! ## One call -/

theorem stops (h : Stops m fault) : Stops (f m) fault :=
  h.map (hf.waiting_eq m) (hf.memory_eq m) (hf.registers_eq m) (hf.keypad_eq m)

theorem afterWord_eq {word : UInt16}
    (hsame : (f m).effect (Instruction.decode word) = f (m.effect (Instruction.decode word))) :
    (f m).afterWord word = f (m.afterWord word) := by
  have htarget := target_congr (hf.registers_eq m) (hf.keypad_eq m) (Instruction.decode word)
  simp only [afterWord]
  rw [htarget, hsame, hf.registers_eq, hf.moveTo_eq, hf.record_eq]

theorem cycles (h : Cycles m result m')
    (hsame : ∀ i, result = some i → (f m).effect i = f (m.effect i)) :
    Cycles (f m) result (f m') :=
  h.map (hf.waiting_eq m) (hf.memory_eq m) (hf.registers_eq m) (hf.keypad_eq m) (hf.afterKey_eq m)
    fun _ hword => hf.afterWord_eq (hsame _ hword)

/-- A cycle does the same if the work of the instruction that it executes does. -/
theorem cycle_eq (hsize : m.memory.size = memorySize)
    (hsame : ∀ i, m.ran? .cycle = some i → (f m).effect i = f (m.effect i)) :
    Machine.cycle (f m) = leaving f (Machine.cycle m) := by
  have hsize' : (f m).memory.size = memorySize := by rw [hf.memory_eq, hsize]
  rcases cycles_or_stops m with ⟨result, m', hc⟩ | ⟨fault, hs⟩
  · rw [ran?_of_cycles hc] at hsame
    rw [(hf.cycles hc hsame).cycle_eq, hc.cycle_eq, leaving_ok]
  · rw [(hf.stops hs).cycle_eq hsize', hs.cycle_eq hsize, leaving_error]

theorem call (hsize : m.memory.size = memorySize) (call : Call)
    (hsame : ∀ i, m.ran? call = some i → (f m).effect i = f (m.effect i)) :
    (f m).answer call = m.answer call ∧ (f m).after call = f (m.after call) := by
  cases call with
  | load program base => exact load_map (hf.memory_eq m) (hf.withMemory m) program base
  | cycle =>
    have hcycle := hf.cycle_eq hsize hsame
    exact ⟨Answer.ofResult_of_leaving _ hcycle, leftBy_of_leaving hcycle⟩
  | tick => exact ⟨rfl, hf.tick_eq m⟩
  | keyDown code => exact keyDown_map (hf.keypad_eq m) (hf.withKeypad m) code
  | keyUp code => exact keyUp_map (hf.keypad_eq m) (hf.withKeypad m) code
  | skipWord =>
    refine ⟨by rw [answer_skipWord, answer_skipWord, hf.registers_eq], ?_⟩
    show leftBy Machine.skipWord (f m) = f (leftBy Machine.skipWord m)
    rw [leftBy_skipWord, leftBy_skipWord, hf.registers_eq]
    -- Whether there is a next word is up to the program counter, which is the same.
    split
    · exact hf.moveTo_eq m _
    · rfl
  | consume =>
    show Answer.cells (f m).screen.consume.1 = .cells m.screen.consume.1 ∧
      { f m with screen := (f m).screen.consume.2 } = f { m with screen := m.screen.consume.2 }
    rw [hf.screen_eq]
    exact ⟨rfl, hf.withScreen m _⟩
  | trace on => exact ⟨rfl, hf.withTracing m on⟩

/-! ## Runs -/

/-- **Calls do the same** if they avoid the instructions that notice the change. -/
theorem afterAll {P : Machine → Prop} {kind : Machine → Instruction → Prop}
    (hsize : ∀ {m}, P m → m.memory.size = memorySize)
    (hafter : ∀ {m} call, P m → P (m.after call))
    (hsame : ∀ {m i}, P m → ¬ kind m i → (f m).effect i = f (m.effect i)) (h : P m)
    {calls : List Call} (havoid : Avoids kind m calls) :
    (f m).answers calls = m.answers calls ∧ (f m).afterAll calls = f (m.afterAll calls) := by
  induction calls generalizing m with
  | nil => exact ⟨rfl, rfl⟩
  | cons call rest ih =>
    obtain ⟨hfirst, hrest⟩ := havoid
    obtain ⟨hanswer, hnext⟩ := hf.call (hsize h) call fun i hran => hsame h (hfirst i hran)
    obtain ⟨hanswers, hlast⟩ := ih (hafter call h) hrest
    constructor
    · show _ :: answers _ rest = _ :: answers _ rest
      rw [hanswer, hnext, hanswers]
    · show ((f m).after call).afterAll rest = _
      rw [hnext, hlast]
      rfl

end Aside

end ChipEight.Machine
