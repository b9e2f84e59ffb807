import ChipEight.Proofs.Emulator.Frame
import ChipEight.Proofs.Machine.KeyWait

/-!
# The record of a run

A machine that is tracing records every instruction that it executes. Its emulator is called in any
way that does not move the program counter from outside: with loads, steps, frames, ticks, keys, and
with looks at the screen.

**Theorem (`trace_afterAll`).** The record grows by one entry for each step that executes an
instruction, in the order of the steps. An entry says where the instruction stood, which word memory
held there just before, what that word stands for, and where the program counter was just after.
From one entry to the next one the program counter moves by two for each word that was skipped in
between, and by two if the first instruction waited for a key, and not otherwise. Without the record
the run goes the same way through the same states.

The steps of a run are told by the emulators that they start from (`turns`), and what a step ought
to be recorded as by what it does (`entry?`). That nothing else moves the program counter is said by
a place that only steps change: where the machine goes on once it does not wait any more
(`resumesAt`). It stays as it is when a wait is ended, since the program counter then makes up for
the wait.
-/

namespace ChipEight

/-- Whether an instruction waits for a key. -/
def Instruction.awaits : Instruction → Bool
  | .awaitKey _ => true
  | _ => false

namespace Machine

/-! ## A machine without its record -/

/-- The machine without its record. -/
def untraced (m : Machine) : Machine := { m with tracing := false, trace := #[] }

section Untraced

variable {m m' : Machine} {result : Option Instruction} {fault : Fault}

theorem effect_untraced (m : Machine) (i : Instruction) :
    m.untraced.effect i = (m.effect i).untraced := by
  cases i <;> rfl

theorem afterWord_untraced (m : Machine) (word : UInt16) :
    m.untraced.afterWord word = (m.afterWord word).untraced := by
  have htarget : m.untraced.target (Instruction.decode word) =
      m.target (Instruction.decode word) := target_congr rfl rfl _
  simp only [afterWord]
  rw [htarget, effect_untraced]
  rfl

theorem Cycles.untraced (h : Cycles m result m') : Cycles m.untraced result m'.untraced :=
  h.map rfl rfl rfl rfl (fun _ => rfl) (fun word _ => m.afterWord_untraced word)

theorem Stops.untraced (h : Stops m fault) : Stops m.untraced fault :=
  h.map rfl rfl rfl rfl

end Untraced

/-! ## What the work of an instruction leaves alone -/

theorem tracing_effect (m : Machine) (i : Instruction) : (m.effect i).tracing = m.tracing := by
  cases i <;> simp only [effect, drawn, written]

theorem trace_effect (m : Machine) (i : Instruction) : (m.effect i).trace = m.trace := by
  cases i <;> simp only [effect, drawn, written]

/-- Where the machine goes on as soon as it does not wait any more. -/
def resumesAt (m : Machine) : Int := m.registers.pc + if m.waiting then 2 else 0

theorem resumesAt_of_running {m : Machine} (h : m.waiting = false) :
    m.resumesAt = m.registers.pc := by
  unfold resumesAt
  rw [h]
  exact Int.add_zero _

/-- An instruction goes on where it says, unless it waits for a key first. -/
theorem resumesAt_afterWord {m : Machine} (h : m.waiting = false) (word : UInt16) :
    (m.afterWord word).resumesAt =
      m.target (Instruction.decode word) + if (Instruction.decode word).awaits then 2 else 0 := by
  have hwaiting : (m.effect (Instruction.decode word)).waiting =
      (Instruction.decode word).awaits := by
    cases hi : Instruction.decode word with
    | awaitKey x => rfl
    | _ => exact (waiting_effect fun x => Instruction.noConfusion).trans h
  show m.target (Instruction.decode word) +
    (if (m.effect (Instruction.decode word)).waiting then 2 else 0) = _
  rw [hwaiting]

/-- The end of a wait leaves it open no longer where the machine goes on. -/
theorem resumesAt_afterKey {m : Machine} (h : m.waiting = true) (key : Key) :
    (m.afterKey key).resumesAt = m.resumesAt := by
  have hafter : (m.afterKey key).resumesAt = m.registers.pc + 2 :=
    resumesAt_of_running (m := m.afterKey key) rfl
  rw [hafter, resumesAt, h]
  rfl

end Machine

namespace Emulator

variable {e e' : Emulator} {result : Option Instruction} {fault : Fault}

/-! ## Steps and their entries -/

/-- The entry for a step of an emulator, if it executes an instruction: the word is the one that
memory holds before the step, and the program counter is told from before and from after it. -/
def entry? (e : Emulator) : Option TraceEntry :=
  match step e with
  | .ok (some i) e' =>
    let pc := e.machine.registers.pc
    some ⟨pc, e.machine.memory.word pc, i, e'.machine.registers.pc⟩
  | _ => none

/-- Whether a step of an emulator goes past a word that stands for no instruction. -/
def skips (e : Emulator) : Bool :=
  match step e with
  | .ok _ e' => e.skipped.size < e'.skipped.size
  | .error _ _ => false

theorem entry?_of_ok_none (h : step e = .ok none e') : e.entry? = none := by
  unfold entry?
  rw [h]

theorem entry?_of_error (h : step e = .error fault e') : e.entry? = none := by
  unfold entry?
  rw [h]

theorem entry?_of_word {word : UInt16} (hwaiting : e.machine.waiting = false)
    (hread : e.machine.memory.readWord e.machine.registers.pc = .ok word)
    (hfree : e.machine.fault? (Instruction.decode word) = none) :
    e.entry? = some ⟨e.machine.registers.pc, word, Instruction.decode word,
      e.machine.target (Instruction.decode word)⟩ := by
  have hcycles : Machine.Cycles e.machine _ _ := .word hwaiting hread hfree
  obtain ⟨-, hword⟩ := Memory.readWord_eq_ok.1 hread
  unfold entry?
  rw [step_of_ok hcycles.cycle_eq]
  dsimp only
  rw [hword]
  rfl

theorem skips_of_cycles {m : Machine} (h : Machine.Cycles e.machine result m) :
    e.skips = false := by
  unfold skips
  rw [step_of_ok h.cycle_eq]
  exact decide_eq_false (Nat.lt_irrefl _)

theorem skips_of_error (h : step e = .error fault e') : e.skips = false := by
  unfold skips
  rw [h]

/-- The words that a step goes past are those that stand for no instruction, except the last one of
memory, which has nothing after it. -/
theorem skips_iff (hsize : e.machine.memory.size = memorySize) :
    e.skips = true ↔
      (∃ word, e.Passes word) ∧ e.machine.registers.pc + 2 < memorySize := by
  constructor
  · intro h
    cases hstep : step e with
    | error fault e' =>
      rw [skips_of_error hstep] at h
      cases h
    | ok result e' =>
      cases (step_ok_iff hsize).1 hstep with
      | cycle cycles =>
        rw [skips_of_cycles cycles] at h
        cases h
      | skip lenient unknown inside => exact ⟨⟨_, lenient, unknown⟩, inside⟩
  · rintro ⟨⟨word, lenient, unknown⟩, inside⟩
    have hsteps : Steps e none (e.pastWord word) := .skip lenient unknown inside
    unfold skips
    rw [hsteps.step_eq hsize]
    refine decide_eq_true ?_
    show e.skipped.size < (e.skipped.push _).size
    rw [Array.size_push]
    exact Nat.lt_succ_self _

/-- How a step goes, as far as the record is concerned. -/
inductive Turn (e : Emulator) : Prop
  /-- It executes the word at the program counter. -/
  | executes {word : UInt16} (waiting : e.machine.waiting = false)
      (fetched : e.machine.memory.readWord e.machine.registers.pc = .ok word)
      (entry : e.entry? = some ⟨e.machine.registers.pc, word, Instruction.decode word,
        e.machine.target (Instruction.decode word)⟩)
      (after : e.after .step = { e with machine := e.machine.afterWord word })
  /-- It goes past a word. -/
  | skips {word : UInt16} (waiting : e.machine.waiting = false) (entry : e.entry? = none)
      (skips : e.skips = true) (after : e.after .step = e.pastWord word)
  /-- It does neither, and at most ends a wait. -/
  | other (entry : e.entry? = none) (skips : e.skips = false)
      (after : (e.after .step).machine = e.machine ∨ e.machine.waiting = true ∧
        ∃ key, (e.after .step).machine = e.machine.afterKey key)

theorem turn (hsize : e.machine.memory.size = memorySize) : Turn e := by
  rcases steps_or_fails e with ⟨result, e', hsteps⟩ | ⟨fault, e', hfails⟩
  · have hstep := hsteps.step_eq hsize
    have hafter := after_step_of_ok hstep
    cases hsteps with
    | @cycle _ m cycles =>
      have hskips := skips_of_cycles cycles
      cases cycles with
      | idle _ _ =>
        exact .other (entry?_of_ok_none hstep) hskips (.inl (congrArg machine hafter))
      | @key key waiting _ _ =>
        exact .other (entry?_of_ok_none hstep) hskips
          (.inr ⟨waiting, key, congrArg machine hafter⟩)
      | word waiting fetched free =>
        exact .executes waiting fetched (entry?_of_word waiting fetched free) hafter
    | skip lenient unknown inside =>
      have hskips : e.skips = true := (skips_iff hsize).2 ⟨⟨_, lenient, unknown⟩, inside⟩
      exact .skips unknown.1 (entry?_of_ok_none hstep) hskips hafter
  · have hstep := hfails.step_eq hsize
    -- A step that is stopped leaves the machine alone; a lenient one may still have noted the word.
    have hmachine : e'.machine = e.machine := by
      cases hfails with
      | fatal _ _ | lastWord _ _ _ => rfl
    have hafter : e.after .step = e' := by
      show leftBy step e = e'
      rw [leftBy, hstep]
    rw [← hafter] at hmachine
    exact .other (entry?_of_error hstep) (skips_of_error hstep) (.inl hmachine)

/-- Where the machine goes on after a step: an execution starts from a new place, and to go past a
word moves it on by two. -/
theorem resumesAt_after_step (hsize : e.machine.memory.size = memorySize) :
    (e.after .step).machine.resumesAt =
      match e.entry? with
      | some entry => entry.next + if entry.instruction.awaits then 2 else 0
      | none => e.machine.resumesAt + if e.skips then 2 else 0 := by
  cases turn hsize with
  | executes waiting _ entry after =>
    rw [entry, after]
    exact Machine.resumesAt_afterWord waiting _
  | skips waiting entry skips after =>
    rw [entry, skips, after, Machine.resumesAt_of_running waiting]
    exact Machine.resumesAt_of_running waiting
  | other entry skips after =>
    rw [entry, skips]
    have hsame : (e.after .step).machine.resumesAt = e.machine.resumesAt := by
      rcases after with hafter | ⟨hwaiting, key, hafter⟩
      · rw [hafter]
      · rw [hafter, Machine.resumesAt_afterKey hwaiting]
    rw [hsame]
    exact (Int.add_zero _).symm

/-! ## The steps of a run -/

/-- The emulators that a number of steps start from, up to one that is stopped. -/
def stepStarts : Nat → Emulator → List Emulator
  | 0, _ => []
  | count + 1, e =>
    e :: match step e with
      | .ok _ e' => stepStarts count e'
      | .error _ _ => []

/-- The emulators that the steps of a call start from. -/
def starts (e : Emulator) : Call → List Emulator
  | .step => [e]
  | .runFrame => stepStarts e.cyclesPerFrame e
  | .load _ _ | .tick | .onMachine _ => []

/-- The emulators that the steps of a run start from, the first one first. -/
def turns (e : Emulator) : List Call → List Emulator
  | [] => []
  | call :: rest => e.starts call ++ (e.after call).turns rest

/-- Whether a call leaves it to the steps of the emulator to execute and to move on, and leaves the
record switched as it is. -/
def Call.isOrdinary : Call → Bool
  | .onMachine call =>
    match call with
    | .cycle | .skipWord | .trace _ => false
    | .load _ _ | .tick | .keyDown _ | .keyUp _ | .consume => true
  | .load _ _ | .step | .tick | .runFrame => true

/-- Steps each of which starts where the machine went on after the one before. -/
inductive Linked : Int → List Emulator → Int → Prop
  | nil (place : Int) : Linked place [] place
  | cons {start : Emulator} {rest : List Emulator} {place : Int}
      (later : Linked (start.after .step).machine.resumesAt rest place) :
      Linked start.machine.resumesAt (start :: rest) place

namespace Linked

variable {origin middle goal : Int} {first second : List Emulator}

theorem append (h : Linked origin first middle) (h' : Linked middle second goal) :
    Linked origin (first ++ second) goal := by
  induction h with
  | nil _ => exact h'
  | cons _ ih => exact .cons (ih h')

theorem of_append (h : Linked origin (first ++ second) goal) :
    ∃ middle, Linked origin first middle ∧ Linked middle second goal := by
  induction first generalizing origin with
  | nil => exact ⟨origin, .nil _, h⟩
  | cons start rest ih =>
    cases h with
    | cons later =>
      obtain ⟨middle, hfirst, hsecond⟩ := ih later
      exact ⟨middle, .cons hfirst, hsecond⟩

/-- Steps that execute nothing move on by two for each word that they go past. -/
theorem eq_of_silent (h : Linked origin first goal)
    (hsize : ∀ start ∈ first, start.machine.memory.size = memorySize)
    (hsilent : ∀ start ∈ first, start.entry? = none) : goal = origin + 2 * first.countP skips := by
  induction h with
  | nil _ => exact (Int.add_zero _).symm
  | @cons start rest _ _ ih =>
    obtain ⟨hstart, hrest⟩ := List.forall_mem_cons.1 hsize
    obtain ⟨hnone, hlater⟩ := List.forall_mem_cons.1 hsilent
    rw [ih hrest hlater, resumesAt_after_step hstart, hnone, List.countP_cons]
    dsimp only
    split <;> omega

end Linked

/-! ## What a run does to the record -/

/-- From one emulator the other comes about by steps from some emulators, which are all that was
recorded and all that moved on. -/
structure Logged (e : Emulator) (starts : List Emulator) (e' : Emulator) : Prop where
  size_eq : e'.machine.memory.size = e.machine.memory.size
  sizes_eq : ∀ start ∈ starts, start.machine.memory.size = e.machine.memory.size
  tracing_eq : e'.machine.tracing = e.machine.tracing
  executed_eq :
    e'.machine.executed = e.machine.executed + (starts.filterMap entry?).length
  trace_eq : e.machine.tracing = true →
    e'.machine.trace.toList = e.machine.trace.toList ++ starts.filterMap entry?
  linked : Linked e.machine.resumesAt starts e'.machine.resumesAt

namespace Logged

variable {e'' : Emulator} {first second : List Emulator}

theorem trans (h : Logged e first e') (h' : Logged e' second e'') :
    Logged e (first ++ second) e'' where
  size_eq := h'.size_eq.trans h.size_eq
  sizes_eq start hmem := by
    rcases List.mem_append.1 hmem with hmem | hmem
    · exact h.sizes_eq start hmem
    · exact (h'.sizes_eq start hmem).trans h.size_eq
  tracing_eq := h'.tracing_eq.trans h.tracing_eq
  executed_eq := by
    rw [h'.executed_eq, h.executed_eq, List.filterMap_append, List.length_append, Nat.add_assoc]
  trace_eq hon := by
    rw [h'.trace_eq (h.tracing_eq.trans hon), h.trace_eq hon, List.filterMap_append,
      List.append_assoc]
  linked := h.linked.append h'.linked

/-- What is neither a step nor a move of the program counter leaves the record alone. -/
theorem of_machine {m : Machine} (hsize : m.memory.size = e.machine.memory.size)
    (htracing : m.tracing = e.machine.tracing) (hexecuted : m.executed = e.machine.executed)
    (htrace : m.trace = e.machine.trace) (hresumes : m.resumesAt = e.machine.resumesAt)
    (hmachine : e'.machine = m) : Logged e [] e' := by
  subst hmachine
  refine ⟨hsize, fun _ hmem => absurd hmem List.not_mem_nil, htracing, hexecuted, fun _ => ?_, ?_⟩
  · rw [htrace]
    exact (List.append_nil _).symm
  · rw [hresumes]
    exact .nil _

/-- A step is recorded exactly if it executes an instruction. -/
theorem step (hsize : e.machine.memory.size = memorySize) : Logged e [e] (e.after .step) := by
  have hlinked : Linked e.machine.resumesAt [e] (e.after .step).machine.resumesAt :=
    .cons (.nil _)
  have hsizes : ∀ start ∈ [e], start.machine.memory.size = e.machine.memory.size := by
    intro start hmem
    rw [List.mem_singleton.1 hmem]
  -- A step that executes nothing changes at most the program counter, the registers and the keypad.
  have hsilent (hnone : e.entry? = none) (m : Machine) (hafter : (e.after .step).machine = m)
      (hsize : m.memory.size = e.machine.memory.size) (htracing : m.tracing = e.machine.tracing)
      (hexecuted : m.executed = e.machine.executed) (htrace : m.trace = e.machine.trace) :
      Logged e [e] (e.after .step) := by
    have hentries : [e].filterMap entry? = [] := List.filterMap_cons_none hnone
    subst hafter
    refine ⟨hsize, hsizes, htracing, ?_, fun _ => ?_, hlinked⟩
    · rw [hentries, hexecuted]
      rfl
    · rw [hentries, htrace, List.append_nil]
  cases turn hsize with
  | @executes word waiting fetched entry after =>
    have hentries : [e].filterMap entry? = [⟨e.machine.registers.pc, word,
        Instruction.decode word, e.machine.target (Instruction.decode word)⟩] :=
      List.filterMap_cons_some entry
    refine ⟨?_, hsizes, ?_, ?_, fun hon => ?_, hlinked⟩
    · rw [after]
      exact Machine.size_effect e.machine _
    · rw [after]
      exact Machine.tracing_effect e.machine _
    · rw [after, hentries]
      exact congrArg (· + 1) (Machine.executed_effect e.machine _)
    · have htracing : (e.machine.effect (Instruction.decode word)).tracing = true :=
        (Machine.tracing_effect e.machine _).trans hon
      rw [after, hentries, ← Machine.trace_effect e.machine (Instruction.decode word)]
      show (if (e.machine.effect (Instruction.decode word)).tracing = true then _ else _ :
        Array TraceEntry).toList = _
      rw [if_pos htracing]
      exact Array.toList_push
  | skips _ entry _ after => exact hsilent entry _ (congrArg machine after) rfl rfl rfl rfl
  | other entry _ after =>
    rcases after with hafter | ⟨-, key, hafter⟩
    · exact hsilent entry _ hafter rfl rfl rfl rfl
    · exact hsilent entry _ hafter rfl rfl rfl rfl

theorem refl (e : Emulator) : Logged e [] e := of_machine rfl rfl rfl rfl rfl rfl

/-- Any number of steps, also if one of them is stopped. -/
theorem steps (count executed : Nat) (hsize : e.machine.memory.size = memorySize) :
    Logged e (stepStarts count e) (leftBy (steps count executed) e) := by
  induction count generalizing executed e with
  | zero => exact refl e
  | succ count ih =>
    have hfirst := step hsize
    rw [stepStarts, Emulator.steps, leftBy_bind]
    cases hstep : Emulator.step e with
    | error fault e' =>
      have hafter : e.after .step = e' := by
        show leftBy Emulator.step e = e'
        rw [leftBy, hstep]
      rw [hafter] at hfirst
      exact hfirst
    | ok result e' =>
      rw [after_step_of_ok hstep] at hfirst
      exact hfirst.trans (ih _ (hfirst.size_eq.trans hsize))

theorem runFrame (hsize : e.machine.memory.size = memorySize) :
    Logged e (stepStarts e.cyclesPerFrame e) (e.after .runFrame) := by
  have hsteps := steps e.cyclesPerFrame 0 hsize
  rw [leftBy] at hsteps
  rw [after_runFrame]
  cases hrun : Emulator.steps e.cyclesPerFrame 0 e with
  | error fault e' =>
    rw [hrun] at hsteps
    exact hsteps
  | ok executed e' =>
    rw [hrun] at hsteps
    have htick : Logged e' [] { e'.tick with frames := e'.frames + 1 } :=
      of_machine (m := e'.machine.tick) rfl rfl rfl rfl rfl rfl
    have hwhole := hsteps.trans htick
    rwa [List.append_nil] at hwhole

/-- A load puts bytes into memory and does nothing else to the machine. -/
theorem load (program : List UInt8) (base : Int)
    (hmachine : e'.machine = e.machine.after (.load program base)) : Logged e [] e' := by
  rw [Machine.after_load] at hmachine
  split at hmachine
  · exact of_machine rfl rfl rfl rfl rfl hmachine
  · exact of_machine (m := { e.machine with memory := e.machine.memory.put base program })
      rfl rfl rfl rfl rfl hmachine

theorem onMachine {call : Machine.Call} (hordinary : (Call.onMachine call).isOrdinary = true) :
    Logged e [] (e.after (.onMachine call)) := by
  cases call with
  | cycle | skipWord | trace _ => cases hordinary
  | load program base => exact load program base rfl
  | tick => exact of_machine (m := e.machine.tick) rfl rfl rfl rfl rfl rfl
  | keyDown code =>
    obtain ⟨keypad, hkeys⟩ := e.machine.exists_after_keyDown code
    exact of_machine (m := { e.machine with keypad }) rfl rfl rfl rfl rfl hkeys
  | keyUp code =>
    obtain ⟨keypad, hkeys⟩ := e.machine.exists_after_keyUp code
    exact of_machine (m := { e.machine with keypad }) rfl rfl rfl rfl rfl hkeys
  | consume =>
    exact of_machine (m := { e.machine with screen := e.machine.screen.consume.2 })
      rfl rfl rfl rfl rfl rfl

/-- **One call.** -/
theorem after (hsize : e.machine.memory.size = memorySize) {call : Call}
    (hordinary : call.isOrdinary = true) : Logged e (e.starts call) (e.after call) := by
  cases call with
  | load program base => exact load program base (e.machine_after_load program base)
  | step => exact step hsize
  | tick => exact of_machine (m := e.machine.tick) rfl rfl rfl rfl rfl rfl
  | runFrame => exact runFrame hsize
  | onMachine call => exact onMachine hordinary

theorem afterAll (hsize : e.machine.memory.size = memorySize) {calls : List Call}
    (hordinary : ∀ call ∈ calls, call.isOrdinary = true) :
    Logged e (e.turns calls) (e.afterAll calls) := by
  induction calls generalizing e with
  | nil => exact refl e
  | cons call rest ih =>
    obtain ⟨hcall, hrest⟩ := List.forall_mem_cons.1 hordinary
    have hfirst := after hsize hcall
    exact hfirst.trans (ih (hfirst.size_eq.trans hsize) hrest)

end Logged

/-! ## Runs without the record -/

/-- The emulator without its record. -/
def untraced (e : Emulator) : Emulator := { e with machine := e.machine.untraced }

theorem Steps.untraced (h : Steps e result e') : Steps e.untraced result e'.untraced := by
  cases h with
  | cycle cycles => exact .cycle cycles.untraced
  | skip lenient unknown inside => exact .skip lenient unknown inside

theorem Fails.untraced (h : Fails e fault e') : Fails e.untraced fault e'.untraced := by
  cases h with
  | fatal stops fatal => exact .fatal stops.untraced fatal
  | lastWord lenient unknown outside => exact .lastWord lenient unknown outside

section Untraced

variable (hsize : e.machine.memory.size = memorySize)

include hsize

theorem step_untraced : step e.untraced = leaving untraced (step e) := by
  have hsize' : e.untraced.machine.memory.size = memorySize := hsize
  rcases steps_or_fails e with ⟨result, e', hsteps⟩ | ⟨fault, e', hfails⟩
  · rw [hsteps.step_eq hsize, hsteps.untraced.step_eq hsize', leaving_ok]
  · rw [hfails.step_eq hsize, hfails.untraced.step_eq hsize', leaving_error]

theorem size_of_step_ok (h : step e = .ok result e') : e'.machine.memory.size = memorySize :=
  ((step_ok_iff hsize).1 h).sameClock.size_eq.trans hsize

theorem steps_untraced (count executed : Nat) :
    steps count executed e.untraced = leaving untraced (steps count executed e) := by
  induction count generalizing executed e with
  | zero => rfl
  | succ count ih =>
    rw [steps]
    exact bind_leaving (step_untraced hsize) fun result middle hstep =>
      ih (size_of_step_ok hsize hstep) _

theorem stepStarts_untraced (count : Nat) :
    stepStarts count e.untraced = (stepStarts count e).map untraced := by
  induction count generalizing e with
  | zero => rfl
  | succ count ih =>
    rw [stepStarts, stepStarts, step_untraced hsize, List.map_cons]
    cases hstep : step e with
    | ok result middle =>
      exact congrArg (e.untraced :: ·) (ih (size_of_step_ok hsize hstep))
    | error fault middle => rfl

theorem runFrame_untraced : runFrame e.untraced = leaving untraced (runFrame e) := by
  rw [runFrame_eq, runFrame_eq]
  exact bind_leaving (steps_untraced hsize e.cyclesPerFrame 0) fun _ _ _ => rfl

theorem starts_untraced (call : Call) : e.untraced.starts call = (e.starts call).map untraced := by
  cases call with
  | runFrame => exact stepStarts_untraced hsize e.cyclesPerFrame
  | load _ _ | step | tick | onMachine _ => rfl

end Untraced

theorem loadProgram_untraced (e : Emulator) (program : List UInt8) (base : Int) :
    e.untraced.loadProgram program base = untraced <$> e.loadProgram program base := by
  have hmemory : e.untraced.machine.memory = e.machine.memory := rfl
  unfold loadProgram Machine.loadProgram
  rw [hmemory]
  cases e.machine.memory.loadProgram program base <;> rfl

/-- A call on the machine that leaves the record alone does the same without it. -/
theorem onMachine_untraced (m : Machine) {call : Machine.Call}
    (hordinary : (Call.onMachine call).isOrdinary = true) :
    m.untraced.answer call = m.answer call ∧ m.untraced.after call = (m.after call).untraced := by
  cases call with
  | cycle | skipWord | trace _ => cases hordinary
  | tick | consume => exact ⟨rfl, rfl⟩
  | load program base => exact Machine.load_map rfl (fun _ => rfl) program base
  | keyDown code => exact Machine.keyDown_map rfl (fun _ => rfl) code
  | keyUp code => exact Machine.keyUp_map rfl (fun _ => rfl) code

/-- **One call without the record.** -/
theorem after_untraced (hsize : e.machine.memory.size = memorySize) {call : Call}
    (hordinary : call.isOrdinary = true) :
    e.untraced.answer call = e.answer call ∧ e.untraced.after call = (e.after call).untraced := by
  cases call with
  | load program base =>
    rw [answer, answer, after, after, loadProgram_untraced]
    cases e.loadProgram program base <;> exact ⟨rfl, rfl⟩
  | step =>
    have hstep := step_untraced hsize
    exact ⟨Answer.ofResult_of_leaving _ hstep, leftBy_of_leaving hstep⟩
  | tick => exact ⟨rfl, rfl⟩
  | runFrame =>
    have hframe := runFrame_untraced hsize
    exact ⟨Answer.ofResult_of_leaving _ hframe, leftBy_of_leaving hframe⟩
  | onMachine call =>
    obtain ⟨hanswer, hafter⟩ := onMachine_untraced e.machine hordinary
    exact ⟨hanswer, congrArg (fun machine => ({ e with machine } : Emulator)) hafter⟩

theorem afterAll_untraced (hsize : e.machine.memory.size = memorySize) {calls : List Call}
    (hordinary : ∀ call ∈ calls, call.isOrdinary = true) :
    e.untraced.answers calls = e.answers calls ∧
      e.untraced.turns calls = (e.turns calls).map untraced ∧
      e.untraced.afterAll calls = (e.afterAll calls).untraced := by
  induction calls generalizing e with
  | nil => exact ⟨rfl, rfl, rfl⟩
  | cons call rest ih =>
    obtain ⟨hcall, hrest⟩ := List.forall_mem_cons.1 hordinary
    obtain ⟨hanswer, hafter⟩ := after_untraced hsize hcall
    obtain ⟨hanswers, hturns, hlast⟩ := ih ((Logged.after hsize hcall).size_eq.trans hsize) hrest
    refine ⟨?_, ?_, ?_⟩
    · rw [answers, answers, hanswer, hafter, hanswers]
    · rw [turns, turns, hafter, hturns, starts_untraced hsize, List.map_append]
    · show (e.untraced.after call).afterAll rest = _
      rw [hafter, hlast]
      rfl

/-! ## The record -/

/-- Between two executions the program counter is moved by skipped words and ended waits only. -/
theorem Logged.next_entry {before between later : List Emulator} {start start' : Emulator}
    {entry entry' : TraceEntry} (hsize : e.machine.memory.size = memorySize)
    (h : Logged e (before ++ start :: (between ++ start' :: later)) e')
    (hentry : start.entry? = some entry) (hsilent : ∀ silent ∈ between, silent.entry? = none)
    (hentry' : start'.entry? = some entry') :
    entry'.pc = entry.next + 2 * between.countP skips +
      if entry.instruction.awaits then 2 else 0 := by
  have hsizes (other : Emulator)
      (hmem : other ∈ before ++ start :: (between ++ start' :: later)) :
      other.machine.memory.size = memorySize := (h.sizes_eq other hmem).trans hsize
  have hstart : start.machine.memory.size = memorySize := hsizes start (by simp)
  have hstart' : start'.machine.memory.size = memorySize := hsizes start' (by simp)
  have hbetween : ∀ silent ∈ between, silent.machine.memory.size = memorySize := by
    intro silent hmem
    exact hsizes silent (by simp [hmem])
  obtain ⟨_, -, hrest⟩ := h.linked.of_append
  cases hrest with
  | cons hlater =>
    obtain ⟨place, hmiddle, hend⟩ := hlater.of_append
    -- Nothing is recorded in between, so only skipped words move the place to resume at.
    have hplace := hmiddle.eq_of_silent hbetween hsilent
    rw [resumesAt_after_step hstart, hentry] at hplace
    cases hend with
    | cons _ =>
      -- The later step is recorded, so it executes the word at its program counter.
      have hpc : start'.machine.resumesAt = entry'.pc := by
        cases turn hstart' with
        | executes waiting _ entry _ =>
          rw [hentry'] at entry
          cases entry
          exact Machine.resumesAt_of_running waiting
        | skips _ entry _ _ | other entry _ _ =>
          rw [hentry'] at entry
          cases entry
      rw [← hpc, hplace]
      dsimp only
      omega

/-- An entry tells the truth about its step. -/
theorem entry_faithful {entry : TraceEntry} (hsize : e.machine.memory.size = memorySize)
    (h : e.entry? = some entry) :
    entry.pc = e.machine.registers.pc ∧ e.machine.memory.readWord entry.pc = .ok entry.word ∧
      entry.instruction = Instruction.decode entry.word ∧
      entry.next = (e.after .step).machine.registers.pc := by
  cases turn hsize with
  | executes _ fetched entry after =>
    rw [h] at entry
    cases entry
    rw [after]
    exact ⟨rfl, fetched, rfl, rfl⟩
  | skips _ entry _ _ | other entry _ _ =>
    rw [h] at entry
    cases entry

/-- **The record of a run.** -/
theorem trace_afterAll {e : Emulator} (he : e.Reachable) (hon : e.machine.tracing = true)
    {calls : List Call} (hordinary : ∀ call ∈ calls, call.isOrdinary = true) :
    let turns := e.turns calls
    let entries := turns.filterMap entry?
    let last := e.afterAll calls
    (last.machine.trace.toList = e.machine.trace.toList ++ entries ∧
      last.machine.executed = e.machine.executed + entries.length) ∧
    (∀ start ∈ turns, ∀ entry, start.entry? = some entry →
      entry.pc = start.machine.registers.pc ∧
        start.machine.memory.readWord entry.pc = .ok entry.word ∧
        entry.instruction = Instruction.decode entry.word ∧
        entry.next = (start.after .step).machine.registers.pc) ∧
    (∀ before start between start' later (entry entry' : TraceEntry),
      turns = before ++ start :: (between ++ start' :: later) →
      start.entry? = some entry → (∀ silent ∈ between, silent.entry? = none) →
      start'.entry? = some entry' →
      entry'.pc = entry.next + 2 * between.countP skips +
        if entry.instruction.awaits then 2 else 0) ∧
    e.untraced.answers calls = e.answers calls ∧
    e.untraced.turns calls = turns.map untraced ∧
    e.untraced.afterAll calls = last.untraced := by
  intro turns entries last
  have hsize : e.machine.memory.size = memorySize := he.machine.sound.memory_size
  have h : Logged e turns last := Logged.afterAll hsize hordinary
  refine ⟨⟨h.trace_eq hon, h.executed_eq⟩, fun start hmem entry hentry => ?_, ?_,
    afterAll_untraced hsize hordinary⟩
  · exact entry_faithful ((h.sizes_eq start hmem).trans hsize) hentry
  · intro before start between start' later entry entry' hturns hentry hsilent hentry'
    rw [hturns] at h
    exact h.next_entry hsize hentry hsilent hentry'

/-- A program that waits for a key, and between its two instructions there is a word that stands for
none. -/
def tracedWait : Emulator :=
  (lenientWith [0xF0, 0x0A, 0x01, 0x23, 0x61, 0x07]).after (.onMachine (.trace true))

/-- Calls that bring the program to its end. -/
def waitCalls : List Call := [.step, .onMachine (.keyDown 5), .step, .step, .step]

theorem turns_tracedWait :
    ∃ ended skipped start', tracedWait.turns waitCalls = [tracedWait, ended, skipped, start'] ∧
      tracedWait.entry? = some ⟨0x200, 0xF00A, .awaitKey 0, 0x200⟩ ∧
      ended.entry? = none ∧ ended.skips = false ∧ skipped.entry? = none ∧ skipped.skips = true ∧
      start'.entry? = some ⟨0x204, 0x6107, .setByte 1 7, 0x206⟩ := by
  have hword {rest : List UInt8} {high low : UInt8} (k : Nat)
      (hk : [0xF0, 0x0A, 0x01, 0x23, 0x61, 0x07].drop k = high :: low :: rest) :
      tracedWait.machine.memory.readWord (programBase + k) = .ok (Word.ofBytes high low) :=
    Memory.readWord_put_drop Memory.size_bytes_loadFont_blank (by decide) (by decide) hk
  have hwait : tracedWait.machine.memory.readWord 0x200 = .ok 0xF00A := hword 0 rfl
  have hinvalid : tracedWait.machine.memory.readWord 0x202 = .ok 0x0123 := hword 2 rfl
  have hset : tracedWait.machine.memory.readWord 0x204 = .ok 0x6107 := hword 4 rfl
  have hdecodeWait : Instruction.decode 0xF00A = .awaitKey 0 := by decide
  have hdecodeSet : Instruction.decode 0x6107 = .setByte 1 7 := by decide
  let waiting : Emulator :=
    { tracedWait with machine := tracedWait.machine.afterWord 0xF00A }
  let pressed : Emulator :=
    { waiting with machine := { waiting.machine with keypad := waiting.machine.keypad.press 5 } }
  let ended : Emulator := { pressed with machine := pressed.machine.afterKey 5 }
  let skipped : Emulator := ended.pastWord 0x0123
  have hexecutes : Machine.Cycles tracedWait.machine _ waiting.machine :=
    .word rfl hwait (by decide)
  have hends : Machine.Cycles pressed.machine none ended.machine := .key rfl rfl (by decide)
  have hskips : Steps ended none skipped := .skip rfl ⟨rfl, hinvalid, by decide⟩ (by decide)
  have hkey : waiting.after (.onMachine (.keyDown 5)) = pressed :=
    congrArg (fun machine => ({ waiting with machine } : Emulator))
      (Machine.after_keyDown waiting.machine 5)
  refine ⟨pressed, ended, skipped, ?_, ?_, ?_, ?_, ?_, ?_, ?_⟩
  · rw [waitCalls, turns, after_step_of_cycles hexecutes, turns, hkey, turns,
      after_step_of_cycles hends, turns, after_step_of_ok (hskips.step_eq rfl)]
    rfl
  · rw [entry?_of_word rfl hwait (by decide), hdecodeWait]
    rfl
  · exact entry?_of_ok_none (step_of_ok hends.cycle_eq)
  · exact skips_of_cycles hends
  · exact entry?_of_ok_none (hskips.step_eq rfl)
  · exact (skips_iff rfl).2 ⟨⟨_, rfl, rfl, hinvalid, by decide⟩, by decide⟩
  · have hwaiting : skipped.machine.waiting = false := rfl
    have hread : skipped.machine.memory.readWord skipped.machine.registers.pc = .ok 0x6107 := hset
    have hfree : skipped.machine.fault? (Instruction.decode 0x6107) = none := by
      rw [hdecodeSet]
      rfl
    rw [entry?_of_word hwaiting hread hfree, hdecodeSet]
    rfl

/-- Two instructions are recorded, and the second one stands where the first one leads with the wait
and the skipped word. -/
theorem trace_tracedWait :
    tracedWait.Reachable ∧ tracedWait.machine.tracing = true ∧
      (∀ call ∈ waitCalls, call.isOrdinary = true) ∧
      (tracedWait.afterAll waitCalls).machine.trace.toList =
        [⟨0x200, 0xF00A, .awaitKey 0, 0x200⟩, ⟨0x204, 0x6107, .setByte 1 7, 0x206⟩] ∧
      (0x204 : Int) = 0x200 + 2 * 1 + 2 := by
  have he : tracedWait.Reachable := (reachable_lenientWith _).after (.onMachine (.trace true))
  have hon : tracedWait.machine.tracing = true := rfl
  have hordinary : ∀ call ∈ waitCalls, call.isOrdinary = true := by decide
  obtain ⟨ended, skipped, start', hturns, hfirst, hended, hends, hskipped, hskips, hlast⟩ :=
    turns_tracedWait
  obtain ⟨⟨htrace, -⟩, -, hnext, -⟩ := trace_afterAll he hon hordinary
  have hsilent : ∀ silent ∈ [ended, skipped], silent.entry? = none := by
    simp [hended, hskipped]
  have hmove := hnext [] tracedWait [ended, skipped] start' [] _ _ hturns hfirst hsilent hlast
  have hcount : [ended, skipped].countP skips = 1 := by simp [hends, hskips]
  rw [hcount] at hmove
  refine ⟨he, hon, hordinary, ?_, hmove⟩
  rw [htrace, hturns]
  simp [hfirst, hended, hskipped, hlast]
  rfl

end Emulator

end ChipEight
