import ChipEight.Proofs.Emulator.Policy
import ChipEight.Proofs.Machine.Countdown

/-!
# Steps and frames in numbers

A step of an emulator that is not stopped executes an instruction, skips a word, or finds its
machine waiting for a key, and never two of these. So the executed instructions, the skipped words
and the idle steps of some steps together are as many as the steps (`steps_balance`).

A frame is a number of steps and one tick. Steps leave the number of frames, the number of ticks and
the two rates alone, also if they are stopped (`SameClock`); a whole frame adds one frame and one
tick.
-/

namespace ChipEight.Machine

theorem executed_effect (m : Machine) (i : Instruction) :
    (m.effect i).executed = m.executed := by
  cases i <;> simp only [effect, drawn, written]

/-- A cycle with a result counts an instruction unless the machine waits. -/
theorem Cycles.executed_eq {m m' : Machine} {result : Option Instruction}
    (h : Cycles m result m') :
    m'.executed + (if m.waiting then 1 else 0) = m.executed + 1 := by
  cases h with
  | idle waiting _ | key waiting _ _ =>
    rw [waiting]
    rfl
  | @word word waiting _ _ =>
    rw [waiting]
    exact congrArg (· + 1) (executed_effect m (Instruction.decode word))

theorem Cycles.ticks_eq {m m' : Machine} {result : Option Instruction} (h : Cycles m result m') :
    m'.timers.ticks = m.timers.ticks := by
  rw [timers_cycles h]
  cases result with
  | none => rfl
  | some i => exact ticks_effect m i

end ChipEight.Machine

namespace ChipEight.Emulator

/-! ## What steps leave alone -/

/-- Two emulators with the same rates, frames and ticks, and the same bounds of memory. -/
structure SameClock (e e' : Emulator) : Prop where
  cpuRate_eq : e'.cpuRate = e.cpuRate
  timerRate_eq : e'.timerRate = e.timerRate
  frames_eq : e'.frames = e.frames
  ticks_eq : e'.machine.timers.ticks = e.machine.timers.ticks
  size_eq : e'.machine.memory.size = e.machine.memory.size

namespace SameClock

variable {e e' e'' : Emulator}

theorem refl (e : Emulator) : SameClock e e := ⟨rfl, rfl, rfl, rfl, rfl⟩

theorem trans (h : SameClock e e') (h' : SameClock e' e'') : SameClock e e'' where
  cpuRate_eq := h'.cpuRate_eq.trans h.cpuRate_eq
  timerRate_eq := h'.timerRate_eq.trans h.timerRate_eq
  frames_eq := h'.frames_eq.trans h.frames_eq
  ticks_eq := h'.ticks_eq.trans h.ticks_eq
  size_eq := h'.size_eq.trans h.size_eq

theorem cyclesPerFrame_eq (h : SameClock e e') : e'.cyclesPerFrame = e.cyclesPerFrame := by
  unfold cyclesPerFrame
  rw [h.cpuRate_eq, h.timerRate_eq]

end SameClock

section Step

variable {e e' : Emulator} {result : Option Instruction} {fault : Fault}

theorem Steps.sameClock (h : Steps e result e') : SameClock e e' := by
  cases h with
  | cycle cycles => exact ⟨rfl, rfl, rfl, cycles.ticks_eq, cycles.size_eq⟩
  | skip _ _ _ => exact ⟨rfl, rfl, rfl, rfl, rfl⟩

theorem Fails.sameClock (h : Fails e fault e') : SameClock e e' := by
  cases h with
  | fatal _ _ => exact .refl e
  | lastWord _ _ _ => exact ⟨rfl, rfl, rfl, rfl, rfl⟩

/-! ## Steps -/

/-- The number of executed instructions and skipped words so far. -/
def work (e : Emulator) : Nat := e.machine.executed + e.skipped.size

/-- How many of a number of steps find the machine waiting for a key. -/
def idleSteps : Nat → Emulator → Nat
  | 0, _ => 0
  | count + 1, e => (if e.machine.waiting then 1 else 0) + idleSteps count (e.after .step)

/-- A step executes, skips or idles. -/
theorem Steps.balance (h : Steps e result e') :
    e'.work + (if e.machine.waiting then 1 else 0) = e.work + 1 := by
  unfold work
  cases h with
  | cycle cycles =>
    have hexecuted := cycles.executed_eq
    dsimp only
    omega
  -- A word is skipped only outside a wait, and is one more among the skipped.
  | @skip word _ unknown _ =>
    have hsize : (e.pastWord word).skipped.size = e.skipped.size + 1 := Array.size_push _
    have hexecuted : (e.pastWord word).machine.executed = e.machine.executed := rfl
    rw [unknown.1, hsize, hexecuted]
    exact rfl

theorem after_step_of_ok (h : Emulator.step e = .ok result e') : e.after .step = e' := by
  show leftBy Emulator.step e = e'
  rw [leftBy, h]

theorem steps_balance {count executed total : Nat} (hsize : e.machine.memory.size = memorySize)
    (h : steps count executed e = .ok total e') :
    SameClock e e' ∧ e'.work + idleSteps count e = e.work + count := by
  induction count generalizing executed e with
  | zero =>
    cases h
    exact ⟨.refl _, rfl⟩
  | succ count ih =>
    obtain ⟨result, middle, hstep, hrest⟩ := bind_eq_ok.1 h
    have hsteps := (step_ok_iff hsize).1 hstep
    have hclock := hsteps.sameClock
    obtain ⟨hsame, hwork⟩ := ih (hclock.size_eq.trans hsize) hrest
    have hfirst := hsteps.balance
    refine ⟨hclock.trans hsame, ?_⟩
    rw [idleSteps, after_step_of_ok hstep]
    omega

theorem sameClock_of_steps_error {count executed : Nat}
    (hsize : e.machine.memory.size = memorySize)
    (h : steps count executed e = .error fault e') : SameClock e e' := by
  induction count generalizing executed e with
  | zero => cases h
  | succ count ih =>
    rcases bind_eq_error.1 h with hstep | ⟨result, middle, hstep, hrest⟩
    · exact ((step_error_iff hsize).1 hstep).sameClock
    · have hclock := ((step_ok_iff hsize).1 hstep).sameClock
      exact hclock.trans (ih (hclock.size_eq.trans hsize) hrest)

/-! ## Frames -/

/-- A whole frame adds one frame and one tick to what its steps leave. -/
theorem runFrame_ok {executed : Nat} (hsize : e.machine.memory.size = memorySize)
    (h : runFrame e = .ok executed e') :
    ∃ last, SameClock e last ∧ e' = { last.tick with frames := last.frames + 1 } ∧
      e'.work + idleSteps e.cyclesPerFrame e = e.work + e.cyclesPerFrame := by
  rw [runFrame_eq] at h
  obtain ⟨_, last, hsteps, hrest⟩ := bind_eq_ok.1 h
  obtain ⟨hsame, hwork⟩ := steps_balance hsize hsteps
  cases hrest
  exact ⟨last, hsame, rfl, hwork⟩

theorem sameClock_of_runFrame_error (hsize : e.machine.memory.size = memorySize)
    (h : runFrame e = .error fault e') : SameClock e e' := by
  rw [runFrame_eq] at h
  rcases bind_eq_error.1 h with hsteps | ⟨_, _, _, hrest⟩
  · exact sameClock_of_steps_error hsize hsteps
  · cases hrest

end Step

end ChipEight.Emulator
