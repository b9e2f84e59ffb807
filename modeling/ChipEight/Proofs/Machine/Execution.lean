import ChipEight.Instruction.Lemmas
import ChipEight.Machine.Cycle
import ChipEight.Proofs.Action
import ChipEight.Proofs.Memory

/-!
# What a cycle does

A cycle is an action with checks and changes in it. Here it is taken apart once: `target` is the
address at which an instruction goes on, `fault?` the fault that stops it, and `effect` the machine
that its work leaves. All three only look at the machine before the instruction, so a cycle that is
stopped has changed nothing.

**Theorem (`cycle_ok_iff`, `cycle_error_iff`).** A cycle ends with a result exactly as `Cycles`
says: it idles, takes a key or executes the word at the program counter. It is stopped exactly as
`Stops` says, and then leaves the machine that it found.

The store has to end where the addresses end. With a longer one a word behind the last address would
be fetched, and a wait for a key would begin there before the program counter is refused.
-/

namespace ChipEight

/-! ## Kinds of instructions -/

/-- Whether an instruction does its work and goes on to the next word. The others choose where they
go on. -/
def Instruction.goesOn : Instruction → Bool
  | .ret | .jump _ | .call _ | .jumpOffset _ | .skip _ | .awaitKey _ | .unknown _ => false
  | _ => true

namespace Machine

/-! ## The parts of a cycle -/

/-- The fault of going on at an address. -/
def goFault? (target : Int) : Option Fault :=
  if (memorySize : Int) ≤ target then some (.programCounter target) else none

/-- The address at which an instruction goes on. -/
def target (m : Machine) : Instruction → Int
  | .ret => (m.registers.stack.headD 0).toNat + 2
  | .jump target | .call target => target.val
  | .jumpOffset target => target.val + (m.registers.get firstRegister).toNat
  | .skip condition => m.registers.pc + (if condition.holds m then 4 else 2)
  | .awaitKey _ => m.registers.pc
  | _ => m.registers.pc + 2

/-- The fault of a range of bytes at the index register. -/
def rangeFault? (m : Machine) (length : Nat) : Option Fault :=
  m.memory.refusal? m.registers.index length

/-- The fault of the work of an instruction, wherever it goes on. -/
def workFault? (m : Machine) : Instruction → Option Fault
  | .ret => if m.registers.stack = [] then some .stackUnderflow else none
  | .call _ => if m.registers.stack.length = stackDepth then some .stackOverflow else none
  | .draw _ _ rows => m.rangeFault? rows.val
  | .decimal _ => m.rangeFault? 3
  | .store x | .load x => m.rangeFault? (x.val + 1)
  | .unknown word => some (.invalidOpcode m.registers.pc word)
  | _ => none

/-- The fault that stops an instruction. One that goes on to the next word checks the address there
before its own work; the others check their own work first. -/
def fault? (m : Machine) (i : Instruction) : Option Fault :=
  if i.goesOn then (goFault? (m.target i)).or (m.workFault? i)
  else (m.workFault? i).or (goFault? (m.target i))

section Congr

variable {m m' : Machine} (hmemory : m'.memory = m.memory) (hregisters : m'.registers = m.registers)
  (hkeypad : m'.keypad = m.keypad)

include hregisters hkeypad

/-- Where an instruction goes on is up to registers and keypad. -/
theorem target_congr (i : Instruction) : m'.target i = m.target i := by
  cases i with
  | skip condition =>
    have hholds : condition.holds m' = condition.holds m := by
      cases condition <;> simp only [Condition.holds, hregisters, hkeypad]
    simp only [target, hregisters, hholds]
  | _ => simp only [target, hregisters]

include hmemory

/-- What stops an instruction is up to memory, registers and keypad. -/
theorem fault?_congr (i : Instruction) : m'.fault? i = m.fault? i := by
  have hwork : m'.workFault? i = m.workFault? i := by
    cases i <;> simp only [workFault?, rangeFault?, hmemory, hregisters]
  rw [fault?, fault?, hwork, target_congr hregisters hkeypad]

end Congr

/-- The machine after a sprite was drawn. -/
def drawn (m : Machine) (x y : Register) (sprite : List UInt8) : Machine :=
  let drawing := m.screen.draw (m.registers.get x).toNat (m.registers.get y).toNat sprite
  { m with
    screen := drawing.2
    registers := m.registers.set flagRegister (if drawing.1 then 1 else 0) }

/-- The machine after bytes were written to where the index register points. -/
def written (m : Machine) (values : List UInt8) : Machine :=
  { m with memory := m.memory.put m.registers.index values }

/-- The machine after the work of an instruction; the program counter is still where it was. -/
def effect (m : Machine) : Instruction → Machine
  | .clear => { m with screen := m.screen.clear }
  | .ret => { m with registers := { m.registers with stack := m.registers.stack.tail } }
  | .call _ =>
    let stack := wrapWord m.registers.pc :: m.registers.stack
    { m with registers := { m.registers with stack } }
  | .setByte x value => { m with registers := m.registers.set x value }
  | .addByte x value => { m with registers := m.registers.set x (m.registers.get x + value) }
  | .arith op x y => { m with registers := m.registers.operate m.variant op x y }
  | .setIndex target => { m with registers := { m.registers with index := target.val } }
  | .random x mask =>
    { m with
      random := m.random.next.2
      registers := m.registers.set x (m.random.next.1 &&& mask) }
  | .draw x y rows => m.drawn x y (m.memory.block m.registers.index rows.val)
  | .readDelay x => { m with registers := m.registers.set x m.timers.delay }
  | .awaitKey x => { m with waiting := true, waitTarget := x, keypad := m.keypad.arm }
  | .setDelay x => { m with timers := { m.timers with delay := m.registers.get x } }
  | .setSound x => { m with timers := { m.timers with sound := m.registers.get x } }
  | .addIndex x =>
    { m with registers := { m.registers with index := m.indexPlus (m.registers.get x) } }
  | .glyph x =>
    let index := glyphAddress ((m.registers.get x).toNat % 16)
    { m with registers := { m.registers with index } }
  | .decimal x => m.written (decimalDigits (m.registers.get x))
  | .store x => m.written (m.registers.upTo x)
  | .load x =>
    { m with
      registers := m.registers.setFirst (m.memory.block m.registers.index (x.val + 1)) }
  | .jump _ | .jumpOffset _ | .skip _ | .unknown _ => m

/-- The machine with its program counter at an address. -/
def moveTo (m : Machine) (target : Int) : Machine :=
  { m with registers := { m.registers with pc := target } }

/-- The machine after it executed a word. -/
def afterWord (m : Machine) (word : UInt16) : Machine :=
  let i := Instruction.decode word
  ((m.effect i).moveTo (m.target i)).record ⟨m.registers.pc, word, i, m.target i⟩

/-- The machine after it took a key and ended its wait. -/
def afterKey (m : Machine) (key : Key) : Machine :=
  { m with
    registers :=
      { m.registers.set m.waitTarget (UInt8.ofNat key.val) with pc := m.registers.pc + 2 }
    keypad := m.keypad.take.2
    waiting := false }

/-- How a cycle ends with a result. -/
inductive Cycles (m : Machine) : Option Instruction → Machine → Prop
  /-- A waiting machine without a press does nothing. -/
  | idle (waiting : m.waiting = true) (pending : m.keypad.pending = none) : Cycles m none m
  /-- A waiting machine with a press takes it. -/
  | key {key : Key} (waiting : m.waiting = true) (pending : m.keypad.pending = some key)
      (inside : m.registers.pc + 2 < memorySize) : Cycles m none (m.afterKey key)
  /-- A machine that does not wait executes the word at the program counter. -/
  | word {word : UInt16} (waiting : m.waiting = false)
      (fetched : m.memory.readWord m.registers.pc = .ok word)
      (free : m.fault? (Instruction.decode word) = none) :
      Cycles m (some (Instruction.decode word)) (m.afterWord word)

/-- How a cycle is stopped. -/
inductive Stops (m : Machine) : Fault → Prop
  /-- There is no address after the wait for a key. -/
  | key {key : Key} (waiting : m.waiting = true) (pending : m.keypad.pending = some key)
      (outside : memorySize ≤ m.registers.pc + 2) : Stops m (.programCounter (m.registers.pc + 2))
  /-- There is no word at the program counter. -/
  | fetch {fault : Fault} (waiting : m.waiting = false)
      (refused : m.memory.readWord m.registers.pc = .error fault) : Stops m fault
  /-- The instruction at the program counter is stopped. -/
  | word {word : UInt16} {fault : Fault} (waiting : m.waiting = false)
      (fetched : m.memory.readWord m.registers.pc = .ok word)
      (stopped : m.fault? (Instruction.decode word) = some fault) : Stops m fault

/-! ## Actions on a machine -/

section Actions

variable {α : Type} {m : Machine}

theorem attempt_eq (result : Except Fault α) :
    attempt result m = match result with
      | .ok a => .ok a m
      | .error fault => .error fault m := by
  cases result <;> rfl

theorem checkTarget_eq (target : Int) :
    checkTarget target m = match goFault? target with
      | some fault => .error fault m
      | none => .ok () m := by
  unfold checkTarget goFault?
  by_cases h : (memorySize : Int) ≤ target
  · rw [if_pos h, if_pos h]
    rfl
  · rw [if_neg h, if_neg h]
    rfl

theorem goTo_eq (target : Int) :
    goTo target m = match goFault? target with
      | some fault => .error fault m
      | none => .ok () (m.moveTo target) := by
  unfold goTo
  cases h : goFault? target with
  | some fault => exact bind_of_error (by rw [checkTarget_eq, h])
  | none => exact bind_of_ok (by rw [checkTarget_eq, h])

end Actions

/-! ## The work of an instruction -/

theorem executeWrite_eq (m : Machine) (values : List UInt8) :
    executeWrite values m = match m.rangeFault? values.length with
      | some fault => .error fault m
      | none => .ok () (m.written values) := by
  unfold executeWrite rangeFault?
  rw [get_bind]
  cases h : m.memory.refusal? m.registers.index values.length with
  | some fault => exact bind_of_error (by rw [Memory.writeBlock_eq, h, attempt_eq])
  | none => exact bind_of_ok (by rw [Memory.writeBlock_eq, h, attempt_eq])

theorem readRange_bind {α : Type} (m : Machine) (length : Nat) (next : List UInt8 → Action α) :
    (attempt (m.memory.readBlock m.registers.index length) >>= next) m =
      match m.rangeFault? length with
      | some fault => .error fault m
      | none => next (m.memory.block m.registers.index length) m := by
  unfold rangeFault?
  have hread := m.memory.readBlock_eq m.registers.index length
  cases h : m.memory.refusal? m.registers.index length with
  | some fault => exact bind_of_error (by rw [hread, h, attempt_eq])
  | none => exact bind_of_ok (by rw [hread, h, attempt_eq])

theorem executeLoad_eq (m : Machine) (x : Register) :
    executeLoad x m = match m.rangeFault? (x.val + 1) with
      | some fault => .error fault m
      | none => .ok () (m.effect (.load x)) :=
  readRange_bind m (x.val + 1) _

theorem executeDraw_eq (m : Machine) (x y : Register) (rows : Fin 16) :
    executeDraw x y rows m = match m.rangeFault? rows.val with
      | some fault => .error fault m
      | none => .ok () (m.effect (.draw x y rows)) :=
  readRange_bind m rows.val _

theorem length_upTo (r : Registers) (x : Register) : (r.upTo x).length = x.val + 1 := by
  have hx := x.isLt
  simp only [Registers.upTo, List.length_take, Vector.length_toList]
  omega

theorem perform_eq (m : Machine) {i : Instruction} (h : i.goesOn = true) :
    perform i m = match m.workFault? i with
      | some fault => .error fault m
      | none => .ok () (m.effect i) := by
  cases i with
  | ret | jump _ | call _ | jumpOffset _ | skip _ | awaitKey _ | unknown _ =>
    simp [Instruction.goesOn] at h
  | draw x y rows => exact executeDraw_eq m x y rows
  | decimal x => exact executeWrite_eq m (decimalDigits (m.registers.get x))
  | store x =>
    have hwrite := executeWrite_eq m (m.registers.upTo x)
    rw [length_upTo] at hwrite
    exact hwrite
  | load x => exact executeLoad_eq m x
  | _ => rfl

/-! ## The execution of an instruction -/

theorem execute_of_goesOn (m : Machine) {i : Instruction} (h : i.goesOn = true) :
    execute i m = match m.fault? i with
      | some fault => .error fault m
      | none => .ok (m.target i) (m.effect i) := by
  have htarget : m.target i = m.registers.pc + 2 := by
    cases i <;> first | rfl | simp [Instruction.goesOn] at h
  have hexecute : execute i m =
      (do checkTarget (m.target i); perform i; return m.target i : Action Int) m := by
    rw [htarget]
    cases i <;> first | rfl | simp [Instruction.goesOn] at h
  rw [hexecute, fault?, if_pos h]
  cases hgo : goFault? (m.target i) with
  | some fault => exact bind_of_error (by rw [checkTarget_eq, hgo])
  | none =>
    have hcheck : checkTarget (m.target i) m = .ok () m := by rw [checkTarget_eq, hgo]
    rw [bind_of_ok hcheck, Option.none_or]
    cases hwork : m.workFault? i with
    | some fault => exact bind_of_error (by rw [perform_eq m h, hwork])
    | none => exact bind_of_ok (by rw [perform_eq m h, hwork])

theorem fault?_eq_none {m : Machine} {i : Instruction} :
    m.fault? i = none ↔ goFault? (m.target i) = none ∧ m.workFault? i = none := by
  unfold fault?
  split
  · exact Option.or_eq_none_iff
  · rw [Option.or_eq_none_iff, and_comm]

theorem goFault?_eq_none {target : Int} : goFault? target = none ↔ target < memorySize := by
  unfold goFault?
  by_cases h : (memorySize : Int) ≤ target
  · simp only [if_pos h, reduceCtorEq, false_iff]
    omega
  · simp only [if_neg h, true_iff]
    omega

theorem goFault?_eq_some {target : Int} {fault : Fault} :
    goFault? target = some fault ↔ memorySize ≤ target ∧ .programCounter target = fault := by
  unfold goFault?
  by_cases h : (memorySize : Int) ≤ target
  · rw [if_pos h, Option.some.injEq, and_iff_right h]
  · rw [if_neg h]
    exact iff_of_false (Option.some_ne_none fault).symm fun hgo => h hgo.1

theorem goFault?_address (target : Address) : goFault? (target.val : Int) = none := by
  rw [goFault?_eq_none]
  have h := target.isLt
  unfold memorySize
  omega

theorem execute_ret (m : Machine) :
    execute .ret m = match m.fault? .ret with
      | some fault => .error fault m
      | none => .ok (m.target .ret) (m.effect .ret) := by
  have hexecute : execute .ret m = executeReturn m := rfl
  rw [hexecute]
  unfold executeReturn fault? Registers.pop
  rw [get_bind]
  cases hstack : m.registers.stack with
  | nil =>
    simp only [workFault?, hstack, Instruction.goesOn]
    rfl
  | cons address rest =>
    have htarget : m.target .ret = address.toNat + 2 := by simp [target, hstack]
    have heffect : m.effect .ret =
        { m with registers := { m.registers with stack := rest } } := by
      simp [effect, hstack]
    simp only [workFault?, hstack, Instruction.goesOn, htarget, heffect, List.head?_cons]
    -- The address is on the stack; what is left to check is where it leads.
    cases hgo : goFault? (address.toNat + 2) with
    | some fault => exact bind_of_error (by rw [checkTarget_eq, hgo])
    | none => exact bind_of_ok (by rw [checkTarget_eq, hgo])

theorem execute_call (m : Machine) (target : Address) :
    execute (.call target) m = match m.fault? (.call target) with
      | some fault => .error fault m
      | none => .ok (m.target (.call target)) (m.effect (.call target)) := by
  have hexecute : execute (.call target) m = executeCall target m := rfl
  have hgo : goFault? (m.target (.call target)) = none := goFault?_address target
  rw [hexecute]
  unfold executeCall fault? workFault? Registers.push
  rw [get_bind, hgo]
  by_cases hfull : m.registers.stack.length = stackDepth
  · rw [if_pos hfull, if_pos hfull]
    rfl
  · rw [if_neg hfull, if_neg hfull]
    rfl

/-- An instruction that nothing stops gives its target and leaves its effect. -/
theorem execute_of_free {m : Machine} {i : Instruction} (h : m.fault? i = none) :
    execute i m = .ok (m.target i) (m.effect i) := by
  cases hi : i.goesOn with
  | true => rw [execute_of_goesOn m hi, h]
  | false =>
    cases i with
    | ret => rw [execute_ret, h]
    | call target => rw [execute_call, h]
    | unknown word => simp [fault?, workFault?, Instruction.goesOn] at h
    | jump _ | jumpOffset _ | skip _ | awaitKey _ => rfl
    | _ => simp [Instruction.goesOn] at hi

/-- An instruction that is stopped has changed nothing: either the execution fails, or it leaves
the machine alone and gives an address that is refused. -/
theorem execute_of_fault {m : Machine} {i : Instruction} {fault : Fault}
    (hpc : m.registers.pc < memorySize) (h : m.fault? i = some fault) :
    execute i m = .error fault m ∨
      execute i m = .ok (m.target i) m ∧ goFault? (m.target i) = some fault := by
  cases hi : i.goesOn with
  | true => exact Or.inl (by rw [execute_of_goesOn m hi, h])
  | false =>
    cases i with
    | ret => exact Or.inl (by rw [execute_ret, h])
    | call target => exact Or.inl (by rw [execute_call, h])
    | unknown word =>
      refine Or.inl ?_
      simp only [fault?, workFault?, Instruction.goesOn, Bool.false_eq_true, if_false,
        Option.some_or, Option.some.injEq] at h
      rw [← h]
      rfl
    | awaitKey x =>
      -- The wait begins before the address is checked, but the word was fetched from there.
      have hfree : m.fault? (.awaitKey x) = none :=
        fault?_eq_none.2 ⟨goFault?_eq_none.2 hpc, rfl⟩
      rw [hfree] at h
      cases h
    | jump _ | jumpOffset _ | skip _ => exact Or.inr ⟨rfl, h⟩
    | _ => simp [Instruction.goesOn] at hi

/-! ## Cycles -/

theorem step_of_fetchFault {m : Machine} {fault : Fault}
    (h : m.memory.readWord m.registers.pc = .error fault) : step m = .error fault m := by
  unfold step
  rw [get_bind]
  exact bind_of_error (by rw [h, attempt_eq])

theorem step_of_free {m : Machine} {word : UInt16}
    (hword : m.memory.readWord m.registers.pc = .ok word)
    (hfree : m.fault? (Instruction.decode word) = none) :
    step m = .ok (Instruction.decode word) (m.afterWord word) := by
  have hgo := (fault?_eq_none.1 hfree).1
  have hfetch : attempt (m.memory.readWord m.registers.pc) m = .ok word m := by
    rw [hword, attempt_eq]
  unfold step
  rw [get_bind, bind_of_ok hfetch, bind_of_ok (execute_of_free hfree)]
  exact bind_of_ok (by rw [goTo_eq, hgo])

theorem pc_lt_of_readWord {m : Machine} {word : UInt16} (hsize : m.memory.size = memorySize)
    (h : m.memory.readWord m.registers.pc = .ok word) : m.registers.pc < memorySize := by
  have hrange := (Memory.readWord_eq_ok.1 h).1
  rw [hsize] at hrange
  omega

theorem step_of_fault {m : Machine} {word : UInt16} {fault : Fault}
    (hsize : m.memory.size = memorySize)
    (hword : m.memory.readWord m.registers.pc = .ok word)
    (hfault : m.fault? (Instruction.decode word) = some fault) : step m = .error fault m := by
  have hpc := pc_lt_of_readWord hsize hword
  have hfetch : attempt (m.memory.readWord m.registers.pc) m = .ok word m := by
    rw [hword, attempt_eq]
  unfold step
  rw [get_bind, bind_of_ok hfetch]
  rcases execute_of_fault hpc hfault with herror | ⟨hok, hgo⟩
  · exact bind_of_error herror
  · rw [bind_of_ok hok]
    exact bind_of_error (by rw [goTo_eq, hgo])

theorem pollKey_of_none {m : Machine} (h : m.keypad.pending = none) : pollKey m = .ok () m := by
  unfold pollKey
  rw [get_bind, h]
  rfl

theorem pollKey_of_some {m : Machine} {key : Key} (h : m.keypad.pending = some key) :
    pollKey m = match goFault? (m.registers.pc + 2) with
      | some fault => .error fault m
      | none => .ok () (m.afterKey key) := by
  unfold pollKey
  rw [get_bind, h]
  cases hgo : goFault? (m.registers.pc + 2) with
  | some fault => exact bind_of_error (by rw [checkTarget_eq, hgo])
  | none => exact bind_of_ok (by rw [checkTarget_eq, hgo])

theorem cycle_of_waiting {m : Machine} (h : m.waiting = true) :
    cycle m = (do pollKey; return none : Action (Option Instruction)) m := by
  unfold cycle
  rw [get_bind, h]
  rfl

theorem cycle_of_running {m : Machine} (h : m.waiting = false) :
    cycle m = (do return some (← step) : Action (Option Instruction)) m := by
  unfold cycle
  rw [get_bind, h]
  rfl

/-- A cycle that gives an instruction has executed the word at the program counter. -/
theorem Cycles.of_some {m m' : Machine} {i : Instruction} (h : Cycles m (some i) m') :
    ∃ word, m.waiting = false ∧ m.memory.readWord m.registers.pc = .ok word ∧
      Instruction.decode word = i ∧ m.fault? i = none ∧ m' = m.afterWord word := by
  generalize hresult : some i = result at h
  cases h with
  | idle _ _ => cases hresult
  | key _ _ _ => cases hresult
  | word waiting fetched free =>
    cases hresult
    exact ⟨_, waiting, fetched, rfl, free, rfl⟩

theorem Cycles.cycle_eq {m m' : Machine} {result : Option Instruction}
    (h : Cycles m result m') : cycle m = .ok result m' := by
  cases h with
  | idle waiting pending =>
    rw [cycle_of_waiting waiting]
    exact bind_of_ok (pollKey_of_none pending)
  | key waiting pending inside =>
    rw [cycle_of_waiting waiting]
    exact bind_of_ok (by rw [pollKey_of_some pending, goFault?_eq_none.2 inside])
  | word waiting fetched free =>
    rw [cycle_of_running waiting]
    exact bind_of_ok (step_of_free fetched free)

theorem Stops.cycle_eq {m : Machine} {fault : Fault} (hsize : m.memory.size = memorySize)
    (h : Stops m fault) : cycle m = .error fault m := by
  cases h with
  | key waiting pending outside =>
    rw [cycle_of_waiting waiting]
    exact bind_of_error (by rw [pollKey_of_some pending, goFault?, if_pos outside])
  | fetch waiting refused =>
    rw [cycle_of_running waiting]
    exact bind_of_error (step_of_fetchFault refused)
  | word waiting fetched stopped =>
    rw [cycle_of_running waiting]
    exact bind_of_error (step_of_fault hsize fetched stopped)

/-- There is no third way: a cycle ends with a result or is stopped. -/
theorem cycles_or_stops (m : Machine) :
    (∃ result m', Cycles m result m') ∨ ∃ fault, Stops m fault := by
  cases hwait : m.waiting with
  | true =>
    cases hpending : m.keypad.pending with
    | none => exact Or.inl ⟨_, _, .idle hwait hpending⟩
    | some key =>
      by_cases hinside : m.registers.pc + 2 < memorySize
      · exact Or.inl ⟨_, _, .key hwait hpending hinside⟩
      · exact Or.inr ⟨_, .key hwait hpending (by omega)⟩
  | false =>
    cases hword : m.memory.readWord m.registers.pc with
    | error fault => exact Or.inr ⟨_, .fetch hwait hword⟩
    | ok word =>
      cases hfault : m.fault? (Instruction.decode word) with
      | none => exact Or.inl ⟨_, _, .word hwait hword hfault⟩
      | some fault => exact Or.inr ⟨_, .word hwait hword hfault⟩

/-- **Cycles with a result.** -/
theorem cycle_ok_iff {m m' : Machine} {result : Option Instruction}
    (hsize : m.memory.size = memorySize) :
    cycle m = .ok result m' ↔ Cycles m result m' := by
  constructor
  · intro h
    rcases cycles_or_stops m with ⟨result', m'', hc⟩ | ⟨fault, hs⟩
    · rw [hc.cycle_eq] at h
      cases h
      exact hc
    · rw [hs.cycle_eq hsize] at h
      cases h
  · exact Cycles.cycle_eq

/-- A cycle that executes an instruction leaves its work in memory and registers. -/
theorem work_of_cycle {m m' : Machine} {i : Instruction} (hsize : m.memory.size = memorySize)
    (hcycle : cycle m = .ok (some i) m') :
    m.workFault? i = none ∧ m'.memory = (m.effect i).memory ∧
      (∀ k, m'.registers.get k = (m.effect i).registers.get k) ∧
      m'.registers.index = (m.effect i).registers.index ∧
      m'.registers.stack = (m.effect i).registers.stack := by
  obtain ⟨word, -, -, rfl, hfree, rfl⟩ := ((cycle_ok_iff hsize).1 hcycle).of_some
  exact ⟨(fault?_eq_none.1 hfree).2, rfl, fun _ => rfl, rfl, rfl⟩

/-- **Cycles that are stopped.** -/
theorem cycle_error_iff {m m' : Machine} {fault : Fault} (hsize : m.memory.size = memorySize) :
    cycle m = .error fault m' ↔ Stops m fault ∧ m' = m := by
  constructor
  · intro h
    rcases cycles_or_stops m with ⟨result, m'', hc⟩ | ⟨fault', hs⟩
    · rw [hc.cycle_eq] at h
      cases h
    · rw [hs.cycle_eq hsize] at h
      cases h
      exact ⟨hs, rfl⟩
  · rintro ⟨hs, rfl⟩
    exact hs.cycle_eq hsize

/-! ## Changes that no cycle looks at -/

section Map

variable {m m' : Machine} {f : Machine → Machine} {result : Option Instruction} {fault : Fault}
  (hwaiting : (f m).waiting = m.waiting) (hmemory : (f m).memory = m.memory)
  (hregisters : (f m).registers = m.registers) (hkeypad : (f m).keypad = m.keypad)

include hwaiting hmemory hregisters hkeypad

/-- What stops a cycle is up to the wait, memory, registers and keypad. -/
theorem Stops.map (h : Stops m fault) : Stops (f m) fault := by
  cases h with
  | key waiting pending outside =>
    rw [← hwaiting] at waiting
    rw [← hkeypad] at pending
    rw [← hregisters] at outside ⊢
    exact .key waiting pending outside
  | fetch waiting refused =>
    rw [← hwaiting] at waiting
    rw [← hmemory, ← hregisters] at refused
    exact .fetch waiting refused
  | word waiting fetched stopped =>
    rw [← hwaiting] at waiting
    rw [← hmemory, ← hregisters] at fetched
    exact .word waiting fetched ((fault?_congr hmemory hregisters hkeypad _).trans stopped)

/-- A change of a machine that a cycle does not look at may as well be made after the cycle. -/
theorem Cycles.map (hkey : ∀ key, (f m).afterKey key = f (m.afterKey key))
    (hword : ∀ word, result = some (Instruction.decode word) →
      (f m).afterWord word = f (m.afterWord word))
    (h : Cycles m result m') : Cycles (f m) result (f m') := by
  cases h with
  | idle waiting pending => exact .idle (hwaiting.trans waiting) (by rw [hkeypad, pending])
  | key waiting pending inside =>
    rw [← hwaiting] at waiting
    rw [← hkeypad] at pending
    rw [← hregisters] at inside
    rw [← hkey]
    exact .key waiting pending inside
  | word waiting fetched free =>
    rw [← hwaiting] at waiting
    rw [← hmemory, ← hregisters] at fetched
    rw [← hword _ rfl]
    exact .word waiting fetched ((fault?_congr hmemory hregisters hkeypad _).trans free)

end Map

/-! ## Words that stand for no instruction -/

/-- The machine is about to execute a word that stands for no instruction. -/
def AtUnknown (m : Machine) (word : UInt16) : Prop :=
  m.waiting = false ∧ m.memory.readWord m.registers.pc = .ok word ∧
    Instruction.decode word = .unknown word

theorem workFault?_of_fault? {m : Machine} {i : Instruction} {fault : Fault}
    (h : m.fault? i = some fault) :
    m.workFault? i = some fault ∨ goFault? (m.target i) = some fault := by
  unfold fault? at h
  split at h
  · rcases Option.or_eq_some_iff.1 h with hgo | ⟨-, hwork⟩
    · exact .inr hgo
    · exact .inl hwork
  · rcases Option.or_eq_some_iff.1 h with hwork | ⟨-, hgo⟩
    · exact .inl hwork
    · exact .inr hgo

theorem fault?_eq_invalidOpcode {m : Machine} {i : Instruction} {pc : Int} {word : UInt16}
    (h : m.fault? i = some (.invalidOpcode pc word)) :
    i = .unknown word ∧ pc = m.registers.pc := by
  have hrange (length : Nat) : m.rangeFault? length ≠ some (.invalidOpcode pc word) := by
    intro hsome
    obtain ⟨_, heq, -⟩ := Memory.refusal?_eq_some hsome
    cases heq
  -- Neither a range nor a target is ever refused with this fault.
  rcases workFault?_of_fault? h with hwork | hgo
  · cases i with
    | draw _ _ _ | decimal _ | store _ | load _ => exact absurd hwork (hrange _)
    | unknown other =>
      cases hwork
      exact ⟨rfl, rfl⟩
    | ret | call _ =>
      simp only [workFault?] at hwork
      split at hwork <;> cases hwork
    | _ => cases hwork
  · cases (goFault?_eq_some.1 hgo).2

/-- A cycle is stopped as by an invalid word exactly if the machine is at one. -/
theorem stops_invalidOpcode_iff {m : Machine} {pc : Int} {word : UInt16} :
    Stops m (.invalidOpcode pc word) ↔ pc = m.registers.pc ∧ m.AtUnknown word := by
  constructor
  · intro h
    cases h with
    -- A fetch is refused because of its address, whatever is there.
    | fetch waiting refused =>
      rw [Memory.readWord_eq] at refused
      cases hrange : m.memory.refusal? m.registers.pc 2 with
      | none =>
        rw [hrange] at refused
        cases refused
      | some fault =>
        obtain ⟨_, heq, -⟩ := Memory.refusal?_eq_some hrange
        rw [hrange, heq] at refused
        cases refused
    | @word fetched _ waiting hread stopped =>
      obtain ⟨hdecode, hpc⟩ := fault?_eq_invalidOpcode stopped
      obtain rfl := Instruction.eq_of_decode_unknown hdecode
      exact ⟨hpc, waiting, hread, hdecode⟩
  · rintro ⟨rfl, waiting, hread, hdecode⟩
    refine .word waiting hread ?_
    rw [hdecode]
    rfl

/-! ## Atomicity -/

/-- **A cycle that is stopped changes nothing.** The machine that a fault leaves is the one before
the cycle, with every part of it. -/
theorem machine_eq_of_cycle_error {m m' : Machine} {fault : Fault}
    (hsize : m.memory.size = memorySize) (h : cycle m = .error fault m') : m' = m :=
  ((cycle_error_iff hsize).1 h).2

/-- A machine at a call with no room left on its stack. -/
def fullStack : Machine :=
  let m := fresh (.ofBytes []) {}
  { m with
    memory := m.memory.put programBase [0x2A, 0xBC]
    registers := { m.registers with stack := List.replicate stackDepth 0x204 } }

/-- The call is stopped before the return address is put anywhere. -/
theorem cycle_fullStack :
    ∃ m', cycle fullStack = .error .stackOverflow m' ∧ m' = fullStack := by
  have hword : fullStack.memory.readWord fullStack.registers.pc = .ok 0x2ABC :=
    Memory.readWord_put Memory.size_bytes_loadFont_blank (by decide) (by decide)
  have hstop : Stops fullStack .stackOverflow := .word rfl hword (by decide)
  have hcycle := hstop.cycle_eq rfl
  exact ⟨fullStack, hcycle, machine_eq_of_cycle_error rfl hcycle⟩

end Machine

end ChipEight
