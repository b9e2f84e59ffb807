import ChipEight.Proofs.Emulator.Trace
import Mathlib.Logic.Function.Iterate

/-!
# The pace of a run

A run in frames is one sequence of steps. After every `cyclesPerFrame` of them a frame ends: the
timers tick, the frame is counted and the screen is shown. `paced` gives the emulator before each
step, whether or not the steps before it were stopped.

A frame whose steps are not stopped leaves the emulator as the sequence has it after as many steps
(`runFrame_of_goes`), and one that is stopped is stopped at the first step of the sequence that is
(`runFrame_of_stops`). The frames so far are those whose steps are all behind (`frames_paced`), and
the executed instructions and the skipped words are as many as the steps that execute and that meet
an invalid word (`executed_paced`, `skipped_paced`).
-/

namespace ChipEight.Emulator

variable {e e' : Emulator} {fault : Fault}

/-! ## Steps in a sequence -/

/-- The emulator after its screen was shown. -/
def shown (e : Emulator) : Emulator :=
  { e with machine := { e.machine with screen := e.machine.screen.consume.2 } }

/-- What ends a frame: the timers tick, the frame is counted and the screen is shown. -/
def endFrame (e : Emulator) : Emulator := shown { e.tick with frames := e.frames + 1 }

/-- The emulator before the step number `k` of a run, counted from zero. -/
def paced (e : Emulator) : Nat → Emulator
  | 0 => e
  | k + 1 =>
    let next := (e.paced k).after .step
    if (k + 1) % e.cyclesPerFrame = 0 then next.endFrame else next

/-- Whether the step of an emulator is not stopped. -/
def Goes (e : Emulator) : Prop := ∃ result e', step e = .ok result e'

/-- Whether the step of an emulator executes an instruction. -/
def executes (e : Emulator) : Bool :=
  match step e with
  | .ok (some _) _ => true
  | _ => false

/-- Whether the step of an emulator comes to a word that stands for no instruction. -/
def meetsInvalid (e : Emulator) : Bool :=
  match Machine.cycle e.machine with
  | .error (.invalidOpcode _ _) _ => true
  | _ => false

theorem cyclesPerFrame_pos (e : Emulator) : 0 < e.cyclesPerFrame := Nat.le_max_left 1 _

/-- A step is not stopped, or it is. -/
theorem goes_or_stops (e : Emulator) : e.Goes ∨ ∃ fault e', step e = .error fault e' := by
  cases h : step e with
  | ok result e' => exact .inl ⟨result, e', h⟩
  | error fault e' => exact .inr ⟨fault, e', rfl⟩

/-- Of some steps of a sequence none is stopped, or there is a first one that is. -/
theorem all_go_or_one_stops (e : Emulator) (total : Nat) :
    (∀ k < total, (e.paced k).Goes) ∨
      ∃ k < total, (∀ j < k, (e.paced j).Goes) ∧
        ∃ fault e', step (e.paced k) = .error fault e' := by
  induction total with
  | zero => exact .inl fun k hk => absurd hk (Nat.not_lt_zero k)
  | succ total ih =>
    rcases ih with hall | ⟨k, hk, hfirst⟩
    · rcases goes_or_stops (e.paced total) with hlast | hstop
      · refine .inl fun k hk => ?_
        rcases Nat.lt_succ_iff_lt_or_eq.1 hk with hbefore | rfl
        · exact hall k hbefore
        · exact hlast
      · exact .inr ⟨total, Nat.lt_succ_self total, hall, hstop⟩
    · exact .inr ⟨k, Nat.lt_succ_of_lt hk, hfirst⟩

theorem Goes.step_eq (h : e.Goes) : ∃ result, step e = .ok result (e.after .step) := by
  obtain ⟨result, e', hstep⟩ := h
  exact ⟨result, by rw [hstep, after_step_of_ok hstep]⟩

theorem after_step_of_error (h : step e = .error fault e') : e.after .step = e' := by
  show leftBy step e = e'
  rw [leftBy, h]

/-! ## What the sequence keeps -/

theorem sameClock_after_step (hsize : e.machine.memory.size = memorySize) :
    SameClock e (e.after .step) := by
  cases h : step e with
  | ok result e' =>
    rw [after_step_of_ok h]
    exact ((step_ok_iff hsize).1 h).sameClock
  | error fault e' =>
    rw [after_step_of_error h]
    exact ((step_error_iff hsize).1 h).sameClock

section Paced

variable (hsize : e.machine.memory.size = memorySize)

include hsize

/-- Steps and frames keep the pace. -/
theorem paced_keeps (k : Nat) :
    (e.paced k).machine.memory.size = memorySize ∧
      (e.paced k).cyclesPerFrame = e.cyclesPerFrame := by
  induction k with
  | zero => exact ⟨hsize, rfl⟩
  | succ k ih =>
    obtain ⟨hsize', hpace⟩ := ih
    have hclock := sameClock_after_step hsize'
    rw [paced]
    split
    · exact ⟨hclock.size_eq.trans hsize', hclock.cyclesPerFrame_eq.trans hpace⟩
    · exact ⟨hclock.size_eq.trans hsize', hclock.cyclesPerFrame_eq.trans hpace⟩

/-- The frames that have ended are those all of whose steps were taken. -/
theorem frames_paced (k : Nat) : (e.paced k).frames = e.frames + k / e.cyclesPerFrame := by
  induction k with
  | zero => rw [Nat.zero_div, paced, Nat.add_zero]
  | succ k ih =>
    have hclock := sameClock_after_step (paced_keeps hsize k).1
    rw [paced, Nat.succ_div]
    -- The quotient grows at the multiples of the pace, which is where a frame ends.
    by_cases hend : (k + 1) % e.cyclesPerFrame = 0
    · rw [if_pos hend, if_pos (Nat.dvd_of_mod_eq_zero hend)]
      show ((e.paced k).after .step).frames + 1 = _
      rw [hclock.frames_eq, ih, Nat.add_assoc]
    · rw [if_neg hend, if_neg (mt Nat.mod_eq_zero_of_dvd hend), hclock.frames_eq, ih, Nat.add_zero]

/-- A step that is stopped leaves the whole frames before it counted. -/
theorem frames_of_step_error {k : Nat} (hstop : step (e.paced k) = .error fault e') :
    e'.frames = e.frames + k / e.cyclesPerFrame := by
  have hclock := sameClock_after_step (paced_keeps hsize k).1
  rw [after_step_of_error hstop] at hclock
  rw [hclock.frames_eq, frames_paced hsize]

/-- After whole frames the sequence goes on as from the start. -/
theorem paced_add (count k : Nat) :
    e.paced (e.cyclesPerFrame * count + k) = (e.paced (e.cyclesPerFrame * count)).paced k := by
  induction k with
  | zero => rfl
  | succ k ih =>
    have hpace := (paced_keeps hsize (e.cyclesPerFrame * count)).2
    have hplace : e.cyclesPerFrame * count + (k + 1) = e.cyclesPerFrame * count + k + 1 := rfl
    -- Whole frames more do not move the place within a frame.
    rw [hplace, paced, paced, ih, hpace, Nat.add_assoc, Nat.mul_add_mod]

/-- Every step that is not stopped counts an instruction if it executes one, and notes a word if it
comes to an invalid one. -/
theorem Goes.counts (h : e.Goes) :
    (e.after .step).machine.executed =
        e.machine.executed + (if e.executes then 1 else 0) ∧
      (e.after .step).skipped.size = e.skipped.size + (if e.meetsInvalid then 1 else 0) := by
  obtain ⟨result, hstep⟩ := h.step_eq
  have hsteps := (step_ok_iff hsize).1 hstep
  unfold executes meetsInvalid
  rw [hstep]
  generalize e.after .step = next at hsteps
  cases hsteps with
  | @cycle _ m cycles =>
    rw [cycles.cycle_eq]
    have hcount := cycles.executed_eq
    cases cycles with
    | idle waiting _ => exact ⟨rfl, rfl⟩
    | key waiting _ _ => exact ⟨rfl, rfl⟩
    | word waiting _ _ =>
      rw [waiting] at hcount
      exact ⟨hcount, rfl⟩
  -- A lenient emulator goes past the word, which is noted and counts as no instruction.
  | skip lenient unknown inside =>
    rw [cycle_of_atUnknown hsize unknown]
    exact ⟨rfl, Array.size_push _⟩

/-- What grows by one in the steps of one kind and not at the end of a frame has grown by the number
of such steps. -/
theorem measure_paced (measure : Emulator → Nat) (kind : Emulator → Bool)
    (hend : ∀ e : Emulator, measure e.endFrame = measure e)
    (hstep : ∀ e : Emulator, e.machine.memory.size = memorySize → e.Goes →
      measure (e.after .step) = measure e + if kind e then 1 else 0)
    {k : Nat} (h : ∀ j < k, (e.paced j).Goes) :
    measure (e.paced k) = measure e + (List.range k).countP fun j => kind (e.paced j) := by
  induction k with
  | zero => rfl
  | succ k ih =>
    have hlast := hstep (e.paced k) (paced_keeps hsize k).1 (h k (Nat.lt_succ_self k))
    rw [ih fun j hj => h j (Nat.lt_succ_of_lt hj)] at hlast
    have hnext : measure (e.paced (k + 1)) = measure ((e.paced k).after .step) := by
      rw [paced]
      split
      · exact hend _
      · rfl
    rw [hnext, hlast, List.range_succ, List.countP_append, List.countP_singleton, Nat.add_assoc]

theorem executed_paced {k : Nat} (h : ∀ j < k, (e.paced j).Goes) :
    (e.paced k).machine.executed =
      e.machine.executed + (List.range k).countP fun j => (e.paced j).executes :=
  measure_paced hsize (·.machine.executed) executes (fun _ => rfl)
    (fun _ hsize' hgoes => (hgoes.counts hsize').1) h

theorem skipped_paced {k : Nat} (h : ∀ j < k, (e.paced j).Goes) :
    (e.paced k).skipped.size =
      e.skipped.size + (List.range k).countP fun j => (e.paced j).meetsInvalid :=
  measure_paced hsize (·.skipped.size) meetsInvalid (fun _ => rfl)
    (fun _ hsize' hgoes => (hgoes.counts hsize').2) h

/-- A run without a record stays without one. -/
theorem untraced_after_step (h : e.untraced = e) : (e.after .step).untraced = e.after .step := by
  rw [← (after_untraced hsize rfl).2, h]

theorem untraced_paced (h : e.untraced = e) (k : Nat) : (e.paced k).untraced = e.paced k := by
  induction k with
  | zero => exact h
  | succ k ih =>
    have hnext := untraced_after_step (paced_keeps hsize k).1 ih
    rw [paced]
    split
    · exact congrArg endFrame hnext
    · exact hnext

end Paced

/-! ## Frames -/

/-- The emulator after a number of steps with no end of a frame between them. -/
def stepped (e : Emulator) (k : Nat) : Emulator := (fun e : Emulator => e.after .step)^[k] e

theorem stepped_succ (e : Emulator) (k : Nat) : e.stepped (k + 1) = (e.after .step).stepped k := rfl

theorem stepped_succ' (e : Emulator) (k : Nat) : e.stepped (k + 1) = (e.stepped k).after .step :=
  Function.iterate_succ_apply' _ k e

theorem paced_of_lt {k : Nat} (h : k < e.cyclesPerFrame) : e.paced k = e.stepped k := by
  induction k with
  | zero => rfl
  | succ k ih =>
    rw [paced, Nat.mod_eq_of_lt h, if_neg (Nat.succ_ne_zero k), ih (Nat.lt_of_succ_lt h),
      stepped_succ']

theorem paced_cyclesPerFrame (e : Emulator) :
    e.paced e.cyclesPerFrame = (e.stepped e.cyclesPerFrame).endFrame := by
  obtain ⟨last, hlast⟩ := Nat.exists_eq_add_one_of_ne_zero (Nat.ne_of_gt e.cyclesPerFrame_pos)
  have hpaced := paced_of_lt (e := e) (k := last) (by omega)
  rw [hlast, paced, hpaced, ← hlast, Nat.mod_self, if_pos rfl, hlast, stepped_succ']

theorem steps_of_goes {count executed : Nat} (h : ∀ k < count, (e.stepped k).Goes) :
    ∃ total, steps count executed e = .ok total (e.stepped count) := by
  induction count generalizing e executed with
  | zero => exact ⟨executed, rfl⟩
  | succ count ih =>
    obtain ⟨result, hstep⟩ : ∃ result, step e = .ok result (e.after .step) :=
      (h 0 (Nat.succ_pos count)).step_eq
    rw [steps, bind_of_ok hstep, stepped_succ]
    exact ih fun k hk => h (k + 1) (Nat.succ_lt_succ hk)

theorem steps_of_stops {count executed k : Nat} (hk : k < count)
    (hbefore : ∀ j < k, (e.stepped j).Goes) (hstop : step (e.stepped k) = .error fault e') :
    steps count executed e = .error fault e' := by
  induction k generalizing e count executed with
  | zero =>
    obtain ⟨rest, rfl⟩ := Nat.exists_eq_add_one_of_ne_zero (Nat.ne_of_gt hk)
    exact bind_of_error hstop
  | succ k ih =>
    obtain ⟨rest, rfl⟩ := Nat.exists_eq_add_one_of_ne_zero (Nat.ne_of_gt (Nat.zero_lt_of_lt hk))
    obtain ⟨result, hstep⟩ : ∃ result, step e = .ok result (e.after .step) :=
      (hbefore 0 (Nat.succ_pos k)).step_eq
    rw [steps, bind_of_ok hstep]
    exact ih (Nat.lt_of_succ_lt_succ hk) (fun j hj => hbefore (j + 1) (Nat.succ_lt_succ hj)) hstop

/-- A frame whose steps are not stopped leaves the emulator after them, before its screen is
shown. -/
theorem runFrame_of_goes (h : ∀ k < e.cyclesPerFrame, (e.paced k).Goes) :
    ∃ total last, runFrame e = .ok total last ∧ last.shown = e.paced e.cyclesPerFrame := by
  obtain ⟨total, hsteps⟩ : ∃ total, steps e.cyclesPerFrame 0 e = .ok total _ :=
    steps_of_goes fun k hk => paced_of_lt hk ▸ h k hk
  refine ⟨total, _, ?_, (paced_cyclesPerFrame e).symm⟩
  rw [runFrame_eq, bind_of_ok hsteps]
  rfl

/-- A frame is stopped at the first of its steps that is stopped. -/
theorem runFrame_of_stops {k : Nat} (hk : k < e.cyclesPerFrame)
    (hbefore : ∀ j < k, (e.paced j).Goes) (hstop : step (e.paced k) = .error fault e') :
    runFrame e = .error fault e' := by
  have hsteps : steps e.cyclesPerFrame 0 e = .error fault e' := by
    refine steps_of_stops hk (fun j hj => ?_) (paced_of_lt hk ▸ hstop)
    exact paced_of_lt (Nat.lt_trans hj hk) ▸ hbefore j hj
  rw [runFrame_eq, bind_of_error hsteps]

end ChipEight.Emulator
