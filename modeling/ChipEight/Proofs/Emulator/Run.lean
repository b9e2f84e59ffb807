import ChipEight.Emulator.Basic
import ChipEight.Proofs.Machine.Invariant

/-!
# Runs of an emulator

An emulator is used by calls from outside as a machine is: programs are loaded, steps, frames and
ticks happen, and whoever delivers keys or takes the screen calls the machine itself. Whatever a
call on an emulator does to its machine could be done by calls on the machine
(`exists_machine_after`), so the machine of a reachable emulator is reachable, and what holds in
every reachable machine holds of it (`Reachable.machine`).
-/

namespace ChipEight.Emulator

/-! ## Calls -/

/-- A call on an emulator. -/
inductive Call where
  | load (program : List UInt8) (base : Int)
  | step
  | tick
  | runFrame
  /-- What a display or somebody else does to the machine. -/
  | onMachine (call : Machine.Call)
  deriving Repr, DecidableEq

/-- The emulator after a call. -/
def after (e : Emulator) : Call → Emulator
  | .load program base => (e.loadProgram program base).toOption.getD e
  | .step => leftBy Emulator.step e
  | .tick => e.tick
  | .runFrame => leftBy Emulator.runFrame e
  | .onMachine call => { e with machine := e.machine.after call }

/-- The emulator after calls, one after the other. -/
def afterAll (e : Emulator) (calls : List Call) : Emulator := calls.foldl after e

/-- What a call gives. -/
def answer (e : Emulator) : Call → Answer
  | .load program base => .ofLoad (e.loadProgram program base)
  | .step => .ofResult .instruction (Emulator.step e)
  | .tick => .nothing
  | .runFrame => .ofResult .executed (Emulator.runFrame e)
  | .onMachine call => e.machine.answer call

/-- What calls give, the first one first. -/
def answers (e : Emulator) : List Call → List Answer
  | [] => []
  | call :: rest => e.answer call :: (e.after call).answers rest

/-- An emulator that comes about by calls from one that was just set up. -/
def Reachable (e : Emulator) : Prop :=
  ∃ cpuRate timerRate strict random variant start calls,
    create cpuRate timerRate strict random variant = .ok start ∧ e = start.afterAll calls

theorem Reachable.after {e : Emulator} (h : e.Reachable) (call : Call) :
    (e.after call).Reachable := by
  obtain ⟨_, _, _, _, _, start, calls, hcreate, rfl⟩ := h
  refine ⟨_, _, _, _, _, start, calls ++ [call], hcreate, ?_⟩
  simp only [afterAll, List.foldl_append, List.foldl_cons, List.foldl_nil]

/-! ## The machine of an emulator -/

/-- A step is a cycle of the machine, if that ends with a result. -/
theorem step_of_ok {e : Emulator} {result : Option Instruction} {m : Machine}
    (h : Machine.cycle e.machine = .ok result m) :
    Emulator.step e = .ok result { e with machine := m } := by
  simp only [Emulator.step, onMachine, h]

/-- A fault of the machine stops the step, unless the emulator is lenient and the fault is about a
word that stands for no instruction. -/
theorem step_of_fatal {e : Emulator} {fault : Fault} {m : Machine}
    (h : Machine.cycle e.machine = .error fault m)
    (hfatal : e.strict = true ∨ ∀ pc word, fault ≠ .invalidOpcode pc word) :
    Emulator.step e = .error fault { e with machine := m } := by
  cases fault with
  | invalidOpcode pc word =>
    have hstrict : e.strict = true := hfatal.resolve_right fun hne => hne pc word rfl
    simp only [Emulator.step, onMachine, h, hstrict, if_true]
  | _ => simp only [Emulator.step, onMachine, h]

/-- A lenient emulator notes the word and lets the machine go past it. -/
theorem step_of_lenient {e : Emulator} {pc : Int} {word : UInt16} {m : Machine}
    (h : Machine.cycle e.machine = .error (.invalidOpcode pc word) m)
    (hlenient : e.strict = false) :
    Emulator.step e =
      match Machine.skipWord m with
      | .ok _ m' => .ok none { e with machine := m', skipped := e.skipped.push (pc, word) }
      | .error fault m' =>
        .error fault { e with machine := m', skipped := e.skipped.push (pc, word) } := by
  have hcycle : onMachine Machine.cycle e =
      .error (.invalidOpcode pc word) { e with machine := m } := by
    simp only [onMachine, h]
  have hnote : skipWord pc word { e with machine := m } =
      onMachine Machine.skipWord { e with machine := m, skipped := e.skipped.push (pc, word) } :=
    rfl
  have hstrict : ¬ e.strict = true := by simp [hlenient]
  simp only [Emulator.step, hcycle, if_neg hstrict]
  show EStateM.bind (skipWord pc word) _ _ = _
  rw [EStateM.bind, hnote, onMachine]
  cases Machine.skipWord m <;> rfl

theorem lenient_of_not_fatal {e : Emulator} {fault : Fault}
    (h : ¬ (e.strict = true ∨ ∀ pc word, fault ≠ .invalidOpcode pc word)) :
    e.strict = false ∧ ∃ pc word, fault = .invalidOpcode pc word := by
  obtain ⟨hstrict, hfault⟩ := not_or.1 h
  refine ⟨Bool.eq_false_iff.2 hstrict, ?_⟩
  cases fault with
  | invalidOpcode pc word => exact ⟨pc, word, rfl⟩
  | _ =>
    refine absurd ?_ hfault
    intro _ _ heq
    cases heq

theorem exists_machine_step (e : Emulator) :
    ∃ calls, (leftBy Emulator.step e).machine = e.machine.afterAll calls := by
  have hcycle : leftBy Machine.cycle e.machine = e.machine.after .cycle := rfl
  unfold leftBy at hcycle
  unfold leftBy
  cases h : Machine.cycle e.machine with
  | ok result m =>
    rw [h] at hcycle
    rw [step_of_ok h]
    exact ⟨[.cycle], hcycle⟩
  | error fault m =>
    rw [h] at hcycle
    by_cases hfatal : e.strict = true ∨ ∀ pc word, fault ≠ .invalidOpcode pc word
    · rw [step_of_fatal h hfatal]
      exact ⟨[.cycle], hcycle⟩
    · obtain ⟨hlenient, pc, word, rfl⟩ := lenient_of_not_fatal hfatal
      refine ⟨[.cycle, .skipWord], ?_⟩
      show _ = leftBy Machine.skipWord (e.machine.after .cycle)
      rw [step_of_lenient h hlenient, ← hcycle, leftBy]
      cases Machine.skipWord m <;> rfl

theorem exists_machine_steps (count executed : Nat) (e : Emulator) :
    ∃ calls, (leftBy (steps count executed) e).machine = e.machine.afterAll calls := by
  induction count generalizing executed e with
  | zero => exact ⟨[], rfl⟩
  | succ count ih =>
    obtain ⟨first, hfirst⟩ := exists_machine_step e
    unfold leftBy at hfirst
    rw [steps, leftBy_bind]
    cases hstep : Emulator.step e with
    | error fault e' =>
      rw [hstep] at hfirst
      exact ⟨first, hfirst⟩
    | ok instruction e' =>
      rw [hstep] at hfirst
      obtain ⟨rest, hrest⟩ := ih (executed + if instruction.isSome then 1 else 0) e'
      refine ⟨first ++ rest, hrest.trans ?_⟩
      rw [Machine.afterAll_append, ← hfirst]

/-- A frame is its cycles and then one tick. -/
theorem runFrame_eq (e : Emulator) :
    runFrame e = (do
      let executed ← steps e.cyclesPerFrame 0
      modify fun e => { e.tick with frames := e.frames + 1 }
      return executed : Action Nat) e := rfl

/-- A frame that is stopped is left where its steps are. -/
theorem after_runFrame (e : Emulator) :
    e.after .runFrame =
      match steps e.cyclesPerFrame 0 e with
      | .ok _ e' => { e'.tick with frames := e'.frames + 1 }
      | .error _ e' => e' := by
  show leftBy runFrame e = _
  rw [leftBy, runFrame_eq]
  cases h : steps e.cyclesPerFrame 0 e with
  | ok executed e' => rw [bind_of_ok h]; rfl
  | error fault e' => rw [bind_of_error h]

theorem exists_machine_runFrame (e : Emulator) :
    ∃ calls, (leftBy Emulator.runFrame e).machine = e.machine.afterAll calls := by
  obtain ⟨calls, hcalls⟩ := exists_machine_steps e.cyclesPerFrame 0 e
  unfold leftBy at hcalls
  have hframe : leftBy Emulator.runFrame e =
      leftBy (do
        let executed ← steps e.cyclesPerFrame 0
        modify fun e => { e.tick with frames := e.frames + 1 }
        return executed) e := by
    rw [leftBy, runFrame_eq, leftBy]
  rw [hframe, leftBy_bind]
  cases hsteps : steps e.cyclesPerFrame 0 e with
  | error fault e' =>
    rw [hsteps] at hcalls
    exact ⟨calls, hcalls⟩
  | ok executed e' =>
    rw [hsteps] at hcalls
    refine ⟨calls ++ [.tick], ?_⟩
    rw [Machine.afterAll_append, ← hcalls]
    rfl

theorem machine_after_load (e : Emulator) (program : List UInt8) (base : Int) :
    (e.after (.load program base)).machine = e.machine.after (.load program base) := by
  show ((e.loadProgram program base).toOption.getD e).machine =
    e.machine.orSame (e.machine.loadProgram program base)
  unfold loadProgram
  cases e.machine.loadProgram program base <;> rfl

/-- What a call does to the machine could be done by calls on the machine. -/
theorem exists_machine_after (e : Emulator) (call : Call) :
    ∃ calls, (e.after call).machine = e.machine.afterAll calls := by
  cases call with
  | load program base => exact ⟨[.load program base], e.machine_after_load program base⟩
  | step => exact exists_machine_step e
  | tick => exact ⟨[.tick], rfl⟩
  | runFrame => exact exists_machine_runFrame e
  | onMachine call => exact ⟨[call], rfl⟩

theorem reachable_afterAll {e : Emulator} (h : e.machine.Reachable) (calls : List Call) :
    (e.afterAll calls).machine.Reachable := by
  induction calls generalizing e with
  | nil => exact h
  | cons call rest ih =>
    obtain ⟨machineCalls, hmachine⟩ := e.exists_machine_after call
    have hnext : (e.after call).machine.Reachable := by
      rw [hmachine]
      exact h.afterAll machineCalls
    exact ih hnext

theorem machine_of_create {cpuRate timerRate : Int} {strict : Bool} {random : Random.Source}
    {variant : Variant} {e : Emulator}
    (h : create cpuRate timerRate strict random variant = .ok e) :
    e.machine = Machine.fresh random variant := by
  unfold create at h
  split at h
  · cases h
  · cases h
    rfl

/-- **The machine of a reachable emulator is reachable.** -/
theorem Reachable.machine {e : Emulator} (h : e.Reachable) : e.machine.Reachable := by
  obtain ⟨_, _, _, random, variant, start, calls, hcreate, rfl⟩ := h
  refine reachable_afterAll ?_ calls
  exact ⟨random, variant, [], machine_of_create hcreate⟩

end ChipEight.Emulator
