import ChipEight.Proofs.Machine.Execution

/-!
# Runs of a machine

A machine is used by calls from outside: programs are loaded, cycles and ticks happen, keys go down
and up, words are skipped, the screen is taken and the recording of instructions is switched. A call
may be refused; it leaves a machine all the same. `Reachable` says that a machine comes about by
calls from one that was just switched on.

`answers` are what the calls give to those who make them: results, faults, the cells of the screen.

`Event` is the part of this that goes on while nobody loads, skips or looks: cycles, ticks and keys.
`executions` are the instructions that the cycles among such events execute.
-/

namespace ChipEight

/-! ## Answers -/

/-- What a call gives besides the state that it leaves. -/
inductive Answer where
  | nothing
  /-- The instruction that a cycle or a step executed, if it executed one. -/
  | instruction (result : Option Instruction)
  /-- The number of instructions that a frame executed. -/
  | executed (count : Nat)
  /-- The cells of the screen. -/
  | cells (cells : Array Bool)
  | stopped (fault : Fault)
  | notLoaded (error : LoadError)
  deriving Repr, DecidableEq

namespace Answer

/-- The answer of an action: what is made of its result, or the fault that stops it. -/
def ofResult {σ α : Type} (give : α → Answer) : EStateM.Result Fault σ α → Answer
  | .ok a _ => give a
  | .error fault _ => .stopped fault

theorem ofResult_of_leaving {σ α : Type} {f : σ → σ} {action : EStateM Fault σ α} {s : σ}
    (give : α → Answer) (h : action (f s) = leaving f (action s)) :
    ofResult give (action (f s)) = ofResult give (action s) := by
  rw [h]
  cases action s <;> rfl

/-- The answer of a key event. -/
def ofKey {α : Type} : Except Fault α → Answer
  | .ok _ => .nothing
  | .error fault => .stopped fault

/-- The answer of a load. -/
def ofLoad {α : Type} : Except LoadError α → Answer
  | .ok _ => .nothing
  | .error error => .notLoaded error

end Answer

namespace Machine

/-! ## Calls -/

/-- A call on a machine. -/
inductive Call where
  | load (program : List UInt8) (base : Int)
  | cycle
  | tick
  | keyDown (code : Int)
  | keyUp (code : Int)
  /-- Go past the word at the program counter. -/
  | skipWord
  /-- Take the cells of the screen. -/
  | consume
  /-- Switch the recording of instructions on or off. -/
  | trace (on : Bool)
  deriving Repr, DecidableEq

/-- The machine after a call that may be refused. -/
def orSame {ε : Type} (m : Machine) : Except ε Machine → Machine
  | .ok m' => m'
  | .error _ => m

/-- The machine after a call. -/
def after (m : Machine) : Call → Machine
  | .load program base => m.orSame (m.loadProgram program base)
  | .cycle => leftBy Machine.cycle m
  | .tick => m.tick
  | .keyDown code => m.orSame (m.keyDown code)
  | .keyUp code => m.orSame (m.keyUp code)
  | .skipWord => leftBy Machine.skipWord m
  | .consume => { m with screen := m.screen.consume.2 }
  | .trace on => { m with tracing := on }

/-- The machine after calls, one after the other. -/
def afterAll (m : Machine) (calls : List Call) : Machine := calls.foldl after m

/-- What a call gives. -/
def answer (m : Machine) : Call → Answer
  | .load program base => .ofLoad (m.loadProgram program base)
  | .cycle => .ofResult .instruction (Machine.cycle m)
  | .keyDown code => .ofKey (m.keyDown code)
  | .keyUp code => .ofKey (m.keyUp code)
  | .skipWord => .ofResult (fun _ => .nothing) (Machine.skipWord m)
  | .consume => .cells m.screen.consume.1
  | .tick | .trace _ => .nothing

/-- What calls give, the first one first. -/
def answers (m : Machine) : List Call → List Answer
  | [] => []
  | call :: rest => m.answer call :: (m.after call).answers rest

theorem afterAll_nil (m : Machine) : m.afterAll [] = m := rfl

theorem afterAll_cons (m : Machine) (call : Call) (rest : List Call) :
    m.afterAll (call :: rest) = (m.after call).afterAll rest := rfl

theorem afterAll_append (m : Machine) (first second : List Call) :
    m.afterAll (first ++ second) = (m.afterAll first).afterAll second :=
  List.foldl_append

/-- A machine that comes about by calls from one that was just switched on. -/
def Reachable (m : Machine) : Prop :=
  ∃ random variant calls, m = (fresh random variant).afterAll calls

theorem Reachable.afterAll {m : Machine} (h : m.Reachable) (calls : List Call) :
    (m.afterAll calls).Reachable := by
  obtain ⟨random, variant, before, rfl⟩ := h
  exact ⟨random, variant, before ++ calls, (afterAll_append _ before calls).symm⟩

theorem Reachable.after {m : Machine} (h : m.Reachable) (call : Call) : (m.after call).Reachable :=
  h.afterAll [call]

/-! ## What each call leaves -/

theorem leftBy_skipWord (m : Machine) :
    leftBy Machine.skipWord m =
      if m.registers.pc + 2 < memorySize then m.moveTo (m.registers.pc + 2) else m := by
  have hskip : Machine.skipWord m = goTo (m.registers.pc + 2) m := rfl
  unfold leftBy
  rw [hskip, goTo_eq]
  by_cases h : m.registers.pc + 2 < memorySize
  · rw [goFault?_eq_none.2 h, if_pos h]
  · rw [goFault?, if_pos (by omega), if_neg h]

theorem after_cycle_of_cycles {m m' : Machine} {result : Option Instruction}
    (h : Cycles m result m') : m.after .cycle = m' := by
  show leftBy Machine.cycle m = m'
  rw [leftBy, h.cycle_eq]

theorem Cycles.afterAll_cons {m m' : Machine} {result : Option Instruction}
    (h : Cycles m result m') (rest : List Call) :
    m.afterAll (.cycle :: rest) = m'.afterAll rest := by
  rw [Machine.afterAll_cons, after_cycle_of_cycles h]

theorem after_cycle_of_stops {m : Machine} {fault : Fault} (hsize : m.memory.size = memorySize)
    (h : Stops m fault) : m.after .cycle = m := by
  show leftBy Machine.cycle m = m
  rw [leftBy, h.cycle_eq hsize]

theorem after_load (m : Machine) (program : List UInt8) (base : Int) :
    m.after (.load program base) =
      if base < 0 ∨ m.memory.size < base + program.length then m
      else { m with memory := m.memory.put base program } := by
  show m.orSame (m.loadProgram program base) = _
  unfold loadProgram Memory.loadProgram
  split <;> rfl

theorem after_keyDown (m : Machine) (key : Key) :
    m.after (.keyDown key.val) = { m with keypad := m.keypad.press key } := by
  show m.orSame (m.keyDown key.val) = _
  rw [keyDown, Key.ofCode_val]
  rfl

theorem after_keyUp (m : Machine) (key : Key) :
    m.after (.keyUp key.val) = { m with keypad := m.keypad.release key } := by
  show m.orSame (m.keyUp key.val) = _
  rw [keyUp, Key.ofCode_val]
  rfl

/-- Whatever the code is, a key that goes down changes nothing but the keypad. -/
theorem exists_after_keyDown (m : Machine) (code : Int) :
    ∃ keypad, m.after (.keyDown code) = { m with keypad } := by
  show ∃ keypad, m.orSame (m.keyDown code) = { m with keypad }
  unfold keyDown
  cases Key.ofCode code with
  | ok key => exact ⟨_, rfl⟩
  | error fault => exact ⟨m.keypad, rfl⟩

theorem exists_after_keyUp (m : Machine) (code : Int) :
    ∃ keypad, m.after (.keyUp code) = { m with keypad } := by
  show ∃ keypad, m.orSame (m.keyUp code) = { m with keypad }
  unfold keyUp
  cases Key.ofCode code with
  | ok key => exact ⟨_, rfl⟩
  | error fault => exact ⟨m.keypad, rfl⟩

section Program

variable {m : Machine} {program rest : List UInt8} {k : Nat} {high low : UInt8} {word : UInt16}
  (hprogram : m.memory = (Memory.blank memorySize).loadFont.put programBase program)
  (hfits : programBase + program.length ≤ memorySize) (hpc : m.registers.pc = programBase + k)
  (hk : program.drop k = high :: low :: rest) (hword : Word.ofBytes high low = word)

include hprogram hfits hpc hk hword

/-- A machine with a program where programs are loaded finds the word of two bytes of it. -/
theorem readWord_of_program : m.memory.readWord m.registers.pc = .ok word := by
  rw [hprogram, hpc, ← hword]
  exact Memory.readWord_put_drop Memory.size_bytes_loadFont_blank (by decide) hfits hk

theorem Cycles.of_program (hwait : m.waiting = false)
    (hfree : m.fault? (Instruction.decode word) = none) :
    Cycles m (some (Instruction.decode word)) (m.afterWord word) :=
  .word hwait (readWord_of_program hprogram hfits hpc hk hword) hfree

end Program

/-- A machine that was just switched on, with a program. -/
def programmed (program : List UInt8) : Machine :=
  (fresh (.ofBytes []) {}).after (.load program programBase)

theorem reachable_programmed (program : List UInt8) : (programmed program).Reachable :=
  ⟨_, _, [.load program programBase], rfl⟩

theorem memory_programmed {program : List UInt8}
    (hfits : programBase + program.length ≤ memorySize) :
    (programmed program).memory = (Memory.blank memorySize).loadFont.put programBase program := by
  have hsize : (fresh (.ofBytes []) {}).memory.size = memorySize := rfl
  unfold programmed
  rw [after_load, hsize, if_neg (by unfold programBase at *; omega)]
  rfl

/-! ## What each call gives -/

theorem answer_cycle_of_cycles {m m' : Machine} {result : Option Instruction}
    (h : Cycles m result m') : m.answer .cycle = .instruction result :=
  congrArg (Answer.ofResult .instruction) h.cycle_eq

theorem answer_cycle_of_stops {m : Machine} {fault : Fault} (hsize : m.memory.size = memorySize)
    (h : Stops m fault) : m.answer .cycle = .stopped fault :=
  congrArg (Answer.ofResult .instruction) (h.cycle_eq hsize)

theorem answer_load (m : Machine) (program : List UInt8) (base : Int) :
    m.answer (.load program base) = .ofLoad (m.memory.loadProgram program base) := by
  show Answer.ofLoad (m.loadProgram program base) = _
  unfold loadProgram
  cases m.memory.loadProgram program base <;> rfl

theorem answer_keyDown (m : Machine) (code : Int) :
    m.answer (.keyDown code) = .ofKey (Key.ofCode code) := by
  show Answer.ofKey (m.keyDown code) = _
  unfold keyDown
  cases Key.ofCode code <;> rfl

theorem answer_keyUp (m : Machine) (code : Int) :
    m.answer (.keyUp code) = .ofKey (Key.ofCode code) := by
  show Answer.ofKey (m.keyUp code) = _
  unfold keyUp
  cases Key.ofCode code <;> rfl

theorem answer_skipWord (m : Machine) :
    m.answer .skipWord =
      match goFault? (m.registers.pc + 2) with
      | none => .nothing
      | some fault => .stopped fault := by
  have hskip : Machine.skipWord m = goTo (m.registers.pc + 2) m := rfl
  show Answer.ofResult _ (Machine.skipWord m) = _
  rw [hskip, goTo_eq]
  cases goFault? (m.registers.pc + 2) <;> rfl

/-! ## Changes that no load and no key looks at -/

section Map

variable {m : Machine} {f : Machine → Machine}

/-- A change of a machine that leaves memory alone may as well be made after a load. -/
theorem load_map (hmemory : (f m).memory = m.memory)
    (hf : ∀ memory, { f m with memory } = f { m with memory }) (program : List UInt8) (base : Int) :
    (f m).answer (.load program base) = m.answer (.load program base) ∧
      (f m).after (.load program base) = f (m.after (.load program base)) := by
  rw [answer_load, answer_load, after_load, after_load, hmemory]
  refine ⟨rfl, ?_⟩
  split
  · rfl
  · exact hf _

variable (hkeypad : (f m).keypad = m.keypad)
  (hf : ∀ keypad, { f m with keypad } = f { m with keypad }) (code : Int)

include hkeypad hf

/-- One that leaves the keypad alone may as well be made after a key event. -/
theorem keyDown_map :
    (f m).answer (.keyDown code) = m.answer (.keyDown code) ∧
      (f m).after (.keyDown code) = f (m.after (.keyDown code)) := by
  refine ⟨by rw [answer_keyDown, answer_keyDown], ?_⟩
  show orSame _ (keyDown _ code) = f (m.orSame (m.keyDown code))
  unfold keyDown
  rw [hkeypad]
  cases Key.ofCode code with
  | ok key => exact hf _
  | error fault => rfl

theorem keyUp_map :
    (f m).answer (.keyUp code) = m.answer (.keyUp code) ∧
      (f m).after (.keyUp code) = f (m.after (.keyUp code)) := by
  refine ⟨by rw [answer_keyUp, answer_keyUp], ?_⟩
  show orSame _ (keyUp _ code) = f (m.orSame (m.keyUp code))
  unfold keyUp
  rw [hkeypad]
  cases Key.ofCode code with
  | ok key => exact hf _
  | error fault => rfl

end Map

/-! ## What a call executes -/

/-- The instruction that a call executes. -/
def ran? (m : Machine) : Call → Option Instruction
  | .cycle =>
    match Machine.cycle m with
    | .ok result _ => result
    | .error _ _ => none
  | _ => none

theorem ran?_of_cycles {m m' : Machine} {result : Option Instruction}
    (h : Cycles m result m') : m.ran? .cycle = result := by
  unfold ran?
  rw [h.cycle_eq]

theorem ran?_of_stops {m : Machine} {fault : Fault} (hsize : m.memory.size = memorySize)
    (h : Stops m fault) : m.ran? .cycle = none := by
  unfold ran?
  rw [h.cycle_eq hsize]

/-- **What a call does.** Either it is a cycle with a result, or it executes nothing. Then it may
put bytes into memory, move the program counter, and work on timers, keypad, screen and the switch
for the record; nothing else changes, and the timers do at a tick only. -/
theorem after_cases {m : Machine} (hsize : m.memory.size = memorySize) (call : Call) :
    call = .cycle ∧ Cycles m (m.ran? call) (m.after call) ∨
      m.ran? call = none ∧ ∃ memory pc timers keypad screen tracing,
        m.after call = { m with
          memory, registers := { m.registers with pc }, timers, keypad, screen, tracing } ∧
        memory.size = m.memory.size ∧
        timers = if call = .tick then m.timers.tick else m.timers := by
  cases call with
  | cycle =>
    rcases cycles_or_stops m with ⟨result, m', hc⟩ | ⟨fault, hs⟩
    · rw [after_cycle_of_cycles hc, ran?_of_cycles hc]
      exact .inl ⟨rfl, hc⟩
    -- A cycle that is stopped leaves everything, so all parts are those of before.
    · rw [after_cycle_of_stops hsize hs, ran?_of_stops hsize hs]
      exact .inr ⟨rfl, _, _, _, _, _, _, rfl, rfl, rfl⟩
  | load program base =>
    rw [after_load]
    split <;> exact .inr ⟨rfl, _, _, _, _, _, _, rfl, rfl, rfl⟩
  | keyDown code =>
    obtain ⟨keypad, h⟩ := m.exists_after_keyDown code
    exact .inr ⟨rfl, _, _, _, keypad, _, _, h, rfl, rfl⟩
  | keyUp code =>
    obtain ⟨keypad, h⟩ := m.exists_after_keyUp code
    exact .inr ⟨rfl, _, _, _, keypad, _, _, h, rfl, rfl⟩
  | skipWord =>
    have hskip : m.after .skipWord = leftBy Machine.skipWord m := rfl
    rw [hskip, leftBy_skipWord]
    split <;> exact .inr ⟨rfl, _, _, _, _, _, _, rfl, rfl, rfl⟩
  | tick | consume | trace _ => exact .inr ⟨rfl, _, _, _, _, _, _, rfl, rfl, rfl⟩

/-- Only a cycle executes anything. -/
theorem cycles_of_ran? {m : Machine} {call : Call} {i : Instruction}
    (hsize : m.memory.size = memorySize) (h : m.ran? call = some i) :
    call = .cycle ∧ Cycles m (some i) (m.after call) := by
  rcases after_cases hsize call with ⟨hcall, hc⟩ | ⟨hnone, -⟩
  · rw [h] at hc
    exact ⟨hcall, hc⟩
  · rw [hnone] at h
    cases h

/-! ## The bounds of memory stay -/

theorem size_effect (m : Machine) (i : Instruction) :
    (m.effect i).memory.size = m.memory.size := by
  cases i <;> simp only [effect, drawn, written, Memory.size_put]

theorem Cycles.size_eq {m m' : Machine} {result : Option Instruction}
    (h : Cycles m result m') : m'.memory.size = m.memory.size := by
  cases h with
  | idle _ _ | key _ _ _ => rfl
  | word _ _ _ => exact size_effect m _

theorem size_after {m : Machine} (hsize : m.memory.size = memorySize) (call : Call) :
    (m.after call).memory.size = memorySize := by
  rcases after_cases hsize call with ⟨-, hc⟩ | ⟨-, _, _, _, _, _, _, hafter, hmemory, -⟩
  · rw [hc.size_eq, hsize]
  · rw [hafter]
    exact hmemory.trans hsize

/-! ## Events -/

/-- What happens to a machine while it runs. -/
inductive Event where
  | cycle
  | tick
  | press (key : Key)
  | release (key : Key)
  deriving Repr, DecidableEq

/-- An event is a call. -/
def Event.call : Event → Call
  | .cycle => .cycle
  | .tick => .tick
  | .press key => .keyDown key.val
  | .release key => .keyUp key.val

/-- Whether an event is a key that goes down. -/
def Event.isPress : Event → Bool
  | .press _ => true
  | _ => false

/-- The machine after events, one after the other. -/
def afterEvents (m : Machine) (events : List Event) : Machine :=
  m.afterAll (events.map Event.call)

/-- What the allowed events keep holds after any number of them. -/
theorem afterEvents_induction {P : Machine → Prop} (allowed : Event → Prop)
    (keeps : ∀ m e, allowed e → P m → P (m.after e.call)) {m : Machine} (h : P m)
    {events : List Event} (hall : ∀ e ∈ events, allowed e) : P (m.afterEvents events) := by
  induction events generalizing m with
  | nil => exact h
  | cons e rest ih =>
    have hstep := keeps m e (hall e List.mem_cons_self) h
    exact ih hstep fun e' hmem => hall e' (List.mem_cons_of_mem e hmem)

/-- The instruction that an event executes. -/
def executed? (m : Machine) (e : Event) : Option Instruction := m.ran? e.call

theorem executed?_of_cycles {m m' : Machine} {result : Option Instruction}
    (h : Cycles m result m') : m.executed? .cycle = result := ran?_of_cycles h

/-- An event is a cycle with a result, or it executes nothing and works on timers and keys only. -/
theorem after_event_cases {m : Machine} (hsize : m.memory.size = memorySize) (e : Event) :
    Cycles m (m.ran? e.call) (m.after e.call) ∨
      m.ran? e.call = none ∧ ∃ timers keypad, m.after e.call = { m with timers, keypad } := by
  cases e with
  | cycle =>
    rcases cycles_or_stops m with ⟨result, m', hc⟩ | ⟨fault, hs⟩
    · rw [Event.call, after_cycle_of_cycles hc, ran?_of_cycles hc]
      exact .inl hc
    · rw [Event.call, after_cycle_of_stops hsize hs, ran?_of_stops hsize hs]
      exact .inr ⟨rfl, m.timers, m.keypad, rfl⟩
  | tick => exact .inr ⟨rfl, _, m.keypad, rfl⟩
  | press key => exact .inr ⟨rfl, m.timers, _, m.after_keyDown key⟩
  | release key => exact .inr ⟨rfl, m.timers, _, m.after_keyUp key⟩

/-- The instructions that the cycles among events execute, the first one first. -/
def executions (m : Machine) : List Event → List Instruction
  | [] => []
  | e :: rest => (m.executed? e).toList ++ (m.after e.call).executions rest

end Machine

end ChipEight
