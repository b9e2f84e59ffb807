import ChipEight.Proofs.Display.Delivery
import ChipEight.Proofs.Emulator.Frame
import Mathlib.Data.ENat.Lattice

/-!
# Runs in numbers

A run of a session with a recorder is a number of frames. It may be ended by its limit, by the
recorder, by a fault of the machine in the middle of a frame, and by a key event with a bad code
before one.

**Theorem (`run_accounts`).** A run that is not stopped has as many frames as the smaller of its
limit and the pumps that the recorder has left. Frames, ticks and pumps have all grown by that
number, and each of the steps of these frames executed an instruction, skipped a word or found the
machine waiting for a key. A run that is stopped by a fault has grown frames and ticks by the number
of whole frames before, and pumps by one more. The recorder is closed in the end either way.

How a frame can end is said first (`frame_ends`); what runs do follows by induction over the frames.
A run without a limit is one with any limit that it does not come to (`run_none_eq`).
-/

namespace ChipEight

/-! ## Recorders -/

/-- A bound on a number of frames. A negative number allows none, and without a number there may be
any. -/
def bound : Option Int → ℕ∞
  | some count => (count.toNat : ℕ∞)
  | none => ⊤

namespace Recorder

variable {r : Recorder}

/-- What a pump that is not the last leaves: other keys, other events, and a pump counted. -/
def Pumped (m : Machine) (r : Recorder) (s : Machine × Recorder) : Prop :=
  ∃ keypad events, s = ({ m with keypad }, { r with pumps := r.pumps + 1, events })

theorem pump_of_not_isDone (m : Machine) (h : r.isDone = false) :
    ∃ s, Pumped m r s ∧ (pump (m, r) = .ok true s ∨ ∃ fault, pump (m, r) = .error fault s) := by
  rcases KeyEvent.keys_or_bad r.events with hkeys | ⟨before, bad, later, hqueue, hkeys, hbad⟩
  · exact ⟨_, ⟨_, [], rfl⟩, .inl (pump_of_keys m h hkeys)⟩
  · exact ⟨_, ⟨_, later, rfl⟩, .inr ⟨_, pump_of_bad m h hqueue hkeys hbad⟩⟩

/-- A screen is always shown. -/
theorem exists_present (sound : Bool) (screen : Framebuffer) (r : Recorder) :
    ∃ shown screen' shots soundFrames,
      present sound (screen, r) = .ok shown (screen', { r with shots, soundFrames }) := by
  cases hdirty : screen.dirty with
  | true => exact ⟨true, _, _, _, present_of_dirty sound r hdirty⟩
  | false => exact ⟨false, _, r.shots, _, present_of_clean sound r hdirty⟩

/-- How many pumps are left until it is time to stop. -/
def left (r : Recorder) : ℕ∞ := bound (r.quitAfter.map fun (count : Int) => count - r.pumps)

theorem left_of_isDone (h : r.isDone = true) : r.left = 0 := by
  unfold isDone at h
  unfold left
  cases hquit : r.quitAfter with
  | none =>
    rw [hquit] at h
    cases h
  | some count =>
    rw [hquit] at h
    have hcount : count ≤ r.pumps := of_decide_eq_true h
    have hzero : (count - r.pumps).toNat = 0 := by omega
    simp only [Option.map_some, bound, hzero, Nat.cast_zero]

/-- A pump takes one off those that are left. -/
theorem left_of_not_isDone {r' : Recorder} (h : r.isDone = false) (hpumps : r'.pumps = r.pumps + 1)
    (hquit : r'.quitAfter = r.quitAfter) : r.left = r'.left + 1 := by
  unfold isDone at h
  unfold left
  rw [hquit]
  cases hcount : r.quitAfter with
  | none => rfl
  | some count =>
    rw [hcount] at h
    have hless : ¬ count ≤ r.pumps := of_decide_eq_false h
    have hsucc : (count - r.pumps).toNat = (count - r'.pumps).toNat + 1 := by omega
    simp only [Option.map_some, bound, hsucc, Nat.cast_add, Nat.cast_one]

/-- A recorder with no pumps left is about to stop. -/
theorem isDone_of_left (h : r.left = 0) : r.isDone = true := by
  by_contra hgoesOn
  have hleft : r.left = left { r with pumps := r.pumps + 1 } + 1 :=
    left_of_not_isDone (Bool.eq_false_iff.2 hgoesOn) rfl rfl
  rw [h] at hleft
  exact absurd hleft.symm (by simp)

end Recorder

namespace Session

variable {s s' : Session Recorder} {fault : Fault}

/-! ## Pumps -/

theorem pump_of_ok {δ : Type} [Display δ] {s : Session δ} {goOn : Bool} {t : Machine × δ}
    (h : Display.pump (s.emulator.machine, s.display) = .ok goOn t) :
    pump s = .ok goOn ⟨{ s.emulator with machine := t.1 }, t.2⟩ := by
  unfold pump
  rw [h]

theorem pump_of_error {δ : Type} [Display δ] {s : Session δ} {t : Machine × δ}
    (h : Display.pump (s.emulator.machine, s.display) = .error fault t) :
    pump s = .error fault ⟨{ s.emulator with machine := t.1 }, t.2⟩ := by
  unfold pump
  rw [h]

theorem present_of_ok {δ : Type} [Display δ] {s : Session δ} {sound shown : Bool}
    {t : Framebuffer × δ}
    (h : Display.present sound (s.emulator.machine.screen, s.display) = .ok shown t) :
    present sound s =
      .ok shown
        ⟨{ s.emulator with machine := { s.emulator.machine with screen := t.1 } }, t.2⟩ := by
  simp only [present, h]

/-! ## Counts -/

/-- What some frames and pumps change and leave alone between two sessions. -/
structure Counted (frames pumps : Nat) (s s' : Session Recorder) : Prop where
  frames_eq : s'.emulator.frames = s.emulator.frames + frames
  ticks_eq : s'.emulator.machine.timers.ticks = s.emulator.machine.timers.ticks + frames
  pumps_eq : s'.display.pumps = s.display.pumps + pumps
  quitAfter_eq : s'.display.quitAfter = s.display.quitAfter
  cyclesPerFrame_eq : s'.emulator.cyclesPerFrame = s.emulator.cyclesPerFrame
  size_eq : s'.emulator.machine.memory.size = s.emulator.machine.memory.size

namespace Counted

variable {frames frames' pumps pumps' : Nat} {s'' : Session Recorder}

theorem refl (s : Session Recorder) : Counted 0 0 s s := ⟨rfl, rfl, rfl, rfl, rfl, rfl⟩

theorem trans (h : Counted frames pumps s s') (h' : Counted frames' pumps' s' s'') :
    Counted (frames + frames') (pumps + pumps') s s'' where
  frames_eq := by rw [h'.frames_eq, h.frames_eq, Nat.add_assoc]
  ticks_eq := by rw [h'.ticks_eq, h.ticks_eq, Nat.add_assoc]
  pumps_eq := by rw [h'.pumps_eq, h.pumps_eq, Nat.add_assoc]
  quitAfter_eq := h'.quitAfter_eq.trans h.quitAfter_eq
  cyclesPerFrame_eq := h'.cyclesPerFrame_eq.trans h.cyclesPerFrame_eq
  size_eq := h'.size_eq.trans h.size_eq

/-- The steps of a frame change no count. -/
theorem of_sameClock {e : Emulator} (h : s.emulator.SameClock e) :
    Counted 0 0 s { s with emulator := e } :=
  ⟨h.frames_eq, h.ticks_eq, rfl, rfl, h.cyclesPerFrame_eq, h.size_eq⟩

theorem of_pumped {t : Machine × Recorder}
    (h : Recorder.Pumped s.emulator.machine s.display t) :
    Counted 0 1 s ⟨{ s.emulator with machine := t.1 }, t.2⟩ ∧
      Emulator.work { s.emulator with machine := t.1 } = s.emulator.work := by
  obtain ⟨keypad, events, rfl⟩ := h
  exact ⟨⟨rfl, rfl, rfl, rfl, rfl, rfl⟩, rfl⟩

/-- A whole frame of the emulator counts as a frame, and balances its work. -/
theorem of_runFrame {executed : Nat} {e : Emulator}
    (hsize : s.emulator.machine.memory.size = memorySize)
    (h : Emulator.runFrame s.emulator = .ok executed e) :
    Counted 1 0 s { s with emulator := e } ∧
      e.work + s.emulator.idleSteps s.emulator.cyclesPerFrame =
        s.emulator.work + s.emulator.cyclesPerFrame := by
  obtain ⟨last, hsame, rfl, hbalance⟩ := Emulator.runFrame_ok hsize h
  refine ⟨⟨?_, ?_, rfl, rfl, hsame.cyclesPerFrame_eq, hsame.size_eq⟩, hbalance⟩
  · exact congrArg (· + 1) hsame.frames_eq
  · exact congrArg (· + 1) hsame.ticks_eq

end Counted

/-- A pump is the last one, or it counts and leaves the work of the emulator alone. -/
theorem pump_cases (s : Session Recorder) :
    s.display.isDone = true ∧ pump s = .ok false s ∨
      s.display.isDone = false ∧ ∃ s', Counted 0 1 s s' ∧ s'.emulator.work = s.emulator.work ∧
        (pump s = .ok true s' ∨ ∃ fault, pump s = .error fault s') := by
  cases hdone : s.display.isDone with
  | true =>
    refine .inl ⟨rfl, pump_of_ok (t := (s.emulator.machine, s.display)) ?_⟩
    exact Recorder.pump_of_isDone s.emulator.machine hdone
  | false =>
    obtain ⟨t, hpumped, hpump⟩ := Recorder.pump_of_not_isDone s.emulator.machine hdone
    obtain ⟨hcounted, hwork⟩ := Counted.of_pumped hpumped
    refine .inr ⟨rfl, _, hcounted, hwork, ?_⟩
    rcases hpump with hpump | ⟨fault, hpump⟩
    · exact .inl (pump_of_ok hpump)
    · exact .inr ⟨fault, pump_of_error hpump⟩

/-! ## Frames -/

/-- How many steps of a frame find the machine waiting for a key. The keys are delivered before. -/
def frameIdle (s : Session Recorder) : Nat :=
  (leftBy pump s).emulator.idleSteps s.emulator.cyclesPerFrame

/-- The part of a frame after its pump. -/
theorem frame_of_pump {middle : Session Recorder} (h : pump s = .ok true middle) :
    frame s = (do
      let _ ← onEmulator Emulator.runFrame
      let _ ← present (← get).emulator.machine.timers.soundOn
      return true : Action Recorder Bool) middle := by
  rw [frame, bind_of_ok h]
  rfl

theorem onEmulator_of_ok {α : Type} {action : Emulator.Action α} {a : α} {e : Emulator}
    (h : action s.emulator = .ok a e) :
    onEmulator action s = .ok a { s with emulator := e } := by
  simp only [onEmulator, h]

theorem onEmulator_of_error {α : Type} {action : Emulator.Action α} {e : Emulator}
    (h : action s.emulator = .error fault e) :
    onEmulator action s = .error fault { s with emulator := e } := by
  simp only [onEmulator, h]

theorem frame_of_isDone (h : s.display.isDone = true) : frame s = .ok false s := by
  rcases pump_cases s with ⟨-, hpump⟩ | ⟨hgoesOn, -⟩
  · rw [frame, bind_of_ok hpump]
    rfl
  · rw [h] at hgoesOn
    cases hgoesOn

/-- How a frame can end: it does not happen, or it is whole, or a fault stops it after its pump was
counted. -/
inductive FrameEnds (s : Session Recorder) : EStateM.Result Fault (Session Recorder) Bool → Prop
  | none (done : s.display.isDone = true) : FrameEnds s (.ok false s)
  | whole {s' : Session Recorder} (goesOn : s.display.isDone = false) (counted : Counted 1 1 s s')
      (balance : s'.emulator.work + frameIdle s = s.emulator.work + s.emulator.cyclesPerFrame) :
      FrameEnds s (.ok true s')
  | stopped {fault : Fault} {s' : Session Recorder} (goesOn : s.display.isDone = false)
      (counted : Counted 0 1 s s') : FrameEnds s (.error fault s')

/-- Showing the screen after a frame changes no count. -/
theorem present_counted (sound : Bool) (s : Session Recorder) :
    ∃ shown s', present sound s = .ok shown s' ∧ Counted 0 0 s s' ∧
      s'.emulator.work = s.emulator.work := by
  obtain ⟨shown, screen, shots, soundFrames, hpresent⟩ :=
    Recorder.exists_present sound s.emulator.machine.screen s.display
  have hcounted : Counted 0 0 s
      ⟨{ s.emulator with machine := { s.emulator.machine with screen } },
        { s.display with shots, soundFrames }⟩ := ⟨rfl, rfl, rfl, rfl, rfl, rfl⟩
  exact ⟨shown, _, present_of_ok hpresent, hcounted, rfl⟩

theorem frame_ends (hsize : s.emulator.machine.memory.size = memorySize) :
    FrameEnds s (frame s) := by
  rcases pump_cases s with
    ⟨hdone, -⟩ | ⟨hgoesOn, middle, hcounted, hwork, hpump | ⟨fault, hpump⟩⟩
  · rw [frame_of_isDone hdone]
    exact .none hdone
  -- The frame counts its idle steps behind the pump, which may end a wait.
  · have hidle : frameIdle s = middle.emulator.idleSteps middle.emulator.cyclesPerFrame := by
      rw [frameIdle, leftBy_of_ok hpump, hcounted.cyclesPerFrame_eq]
    have hmiddle := hcounted.size_eq.trans hsize
    rw [frame_of_pump hpump]
    cases hrun : Emulator.runFrame middle.emulator with
    | error fault e =>
      rw [bind_of_error (onEmulator_of_error hrun)]
      exact .stopped hgoesOn
        (hcounted.trans (.of_sameClock (Emulator.sameClock_of_runFrame_error hmiddle hrun)))
    | ok executed e =>
      obtain ⟨hframe, hbalance⟩ := Counted.of_runFrame hmiddle hrun
      obtain ⟨shown, s', hpresent, hshown, hsame⟩ :=
        present_counted e.machine.timers.soundOn { middle with emulator := e }
      rw [bind_of_ok (onEmulator_of_ok hrun), get_bind, bind_of_ok hpresent]
      refine .whole hgoesOn ((hcounted.trans hframe).trans hshown) ?_
      rw [hsame, hidle, ← hwork, ← hcounted.cyclesPerFrame_eq]
      exact hbalance
  · rw [frame, bind_of_error hpump]
    exact .stopped hgoesOn hcounted

/-! ## Runs of frames -/

/-- How many steps of a number of frames find the machine waiting for a key. -/
def idleSteps : Nat → Session Recorder → Nat
  | 0, _ => 0
  | count + 1, s => frameIdle s + idleSteps count (leftBy frame s)

theorem frames_succ {goesOn : Bool} {middle : Session Recorder} (count done : Nat)
    (h : frame s = .ok goesOn middle) :
    frames (count + 1) done s =
      if goesOn then frames count (done + 1) middle else .ok done middle := by
  rw [frames, bind_of_ok h]
  cases goesOn <;> rfl

theorem frames_succ_of_error {count done : Nat} (h : frame s = .error fault s') :
    frames (count + 1) done s = .error fault s' := by
  rw [frames, bind_of_error h]

/-- Frames that are not stopped are as many as were asked for, or as the recorder has pumps left. -/
theorem frames_ok {count done total : Nat} (hsize : s.emulator.machine.memory.size = memorySize)
    (h : frames count done s = .ok total s') :
    ∃ k, total = done + k ∧ (k : ℕ∞) = min (count : ℕ∞) s.display.left ∧ Counted k k s s' ∧
      s'.emulator.work + idleSteps k s = s.emulator.work + k * s.emulator.cyclesPerFrame := by
  induction count generalizing done s with
  | zero =>
    cases h
    exact ⟨0, rfl, by simp, .refl _, by simp [idleSteps]⟩
  | succ count ih =>
    have hends := frame_ends hsize
    generalize hframe : frame s = result at hends
    cases hends with
    | none hdone =>
      rw [frames_succ count done hframe] at h
      cases h
      exact ⟨0, rfl, by simp [Recorder.left_of_isDone hdone], .refl _, by simp [idleSteps]⟩
    | @whole middle hgoesOn hcounted hbalance =>
      rw [frames_succ count done hframe] at h
      obtain ⟨k, rfl, hk, hrest, hwork⟩ := ih (hcounted.size_eq.trans hsize) h
      -- The frame takes one off the count and one off the pumps that are left.
      have hleft : s.display.left = middle.display.left + 1 :=
        Recorder.left_of_not_isDone hgoesOn hcounted.pumps_eq hcounted.quitAfter_eq
      refine ⟨k + 1, by omega, ?_, ?_, ?_⟩
      · rw [hleft, Nat.cast_add, Nat.cast_add, Nat.cast_one, min_add_add_right, hk]
      · rw [Nat.add_comm k 1]
        exact hcounted.trans hrest
      · rw [idleSteps, leftBy_of_ok hframe, Nat.succ_mul]
        rw [hcounted.cyclesPerFrame_eq] at hwork
        omega
    | stopped hgoesOn hcounted =>
      rw [frames_succ_of_error hframe] at h
      cases h

/-- Frames that are stopped are some whole ones and then one that is stopped. -/
theorem frames_error {count done : Nat} (h : frames count done s = .error fault s') :
    ∃ k middle, frames k done s = .ok (done + k) middle ∧ frame middle = .error fault s' := by
  induction count generalizing done s with
  | zero => cases h
  | succ count ih =>
    cases hframe : frame s with
    | error first middle =>
      rw [frames_succ_of_error hframe] at h
      cases h
      exact ⟨0, s, rfl, hframe⟩
    | ok goesOn next =>
      rw [frames_succ count done hframe] at h
      cases goesOn with
      -- A run that the recorder ends is not stopped.
      | false => cases h
      | true =>
        obtain ⟨k, middle, hframes, hlast⟩ := ih h
        refine ⟨k + 1, middle, ?_, hlast⟩
        rw [frames_succ k done hframe]
        exact hframes.trans (by rw [Nat.add_right_comm]; rfl)

/-- Frames that the recorder does not ask for do not happen. -/
theorem frames_add_of_left_le {count : Nat} (hsize : s.emulator.machine.memory.size = memorySize)
    (hleft : s.display.left ≤ count) (extra done : Nat) :
    frames (count + extra) done s = frames count done s := by
  induction count generalizing done s with
  | zero =>
    have hdone : s.display.isDone = true :=
      Recorder.isDone_of_left (nonpos_iff_eq_zero.1 (hleft.trans_eq Nat.cast_zero))
    rw [Nat.zero_add]
    cases extra with
    | zero => rfl
    | succ extra =>
      rw [frames_succ extra done (frame_of_isDone hdone)]
      rfl
  | succ count ih =>
    have hends := frame_ends hsize
    rw [Nat.add_right_comm]
    generalize hframe : frame s = result at hends
    cases hends with
    | none _ => rw [frames_succ _ done hframe, frames_succ _ done hframe]; rfl
    -- One pump less is left for one frame less.
    | @whole middle hgoesOn hcounted _ =>
      have hsucc : s.display.left = middle.display.left + 1 :=
        Recorder.left_of_not_isDone hgoesOn hcounted.pumps_eq hcounted.quitAfter_eq
      rw [hsucc, Nat.cast_add, Nat.cast_one] at hleft
      have hle : middle.display.left ≤ count :=
        (ENat.add_le_add_iff_right ENat.one_ne_top).1 hleft
      rw [frames_succ _ done hframe, frames_succ _ done hframe]
      exact ih (hcounted.size_eq.trans hsize) hle (done + 1)
    | stopped _ _ => rw [frames_succ_of_error hframe, frames_succ_of_error hframe]

/-! ## Runs -/

section Display

variable {δ : Type} [Display δ] {t t' : Session δ} {limit : Option Int}

/-- The session with its display open. -/
def opened (t : Session δ) : Session δ := { t with display := Display.opened t.display }

/-- The session with its display closed. -/
def closed (t : Session δ) : Session δ := { t with display := Display.closed t.display }

theorem run_of_ok {n : Nat}
    (h : frames (frameLimit limit (opened t).display) 0 (opened t) = .ok n t') :
    run limit t = .ok n (closed t') := by
  unfold opened at h
  simp only [run, h, closed]

theorem run_of_error
    (h : frames (frameLimit limit (opened t).display) 0 (opened t) = .error fault t') :
    run limit t = .error fault (closed t') := by
  unfold opened at h
  simp only [run, h, closed]

end Display

/-- Without a limit a run may have as many frames as the recorder has pumps left. -/
theorem frameLimit_none {r : Recorder} (h : r.quitAfter ≠ none) :
    (frameLimit none r : ℕ∞) = r.left := by
  obtain ⟨count, hcount⟩ := Option.ne_none_iff_exists'.1 h
  have hlimit : frameLimit none r = (count - r.pumps).toNat := by
    show ((r.quitAfter.map fun (count : Int) => (count - r.pumps).toNat).getD endless) = _
    rw [hcount]
    rfl
  rw [hlimit, Recorder.left, hcount]
  rfl

theorem min_frameLimit {limit : Option Int} {r : Recorder}
    (h : limit = none → r.quitAfter ≠ none) :
    min (frameLimit limit r : ℕ∞) r.left = min (bound limit) r.left := by
  cases limit with
  | some count => rfl
  | none => rw [frameLimit_none (h rfl), bound, min_self, min_eq_right le_top]

/-- A run without a limit is one with any limit that it does not come to. -/
theorem run_none_eq {count : Int} (hsize : s.emulator.machine.memory.size = memorySize)
    (hquit : s.display.quitAfter ≠ none) (hcount : s.display.left ≤ bound (some count)) :
    run none s = run (some count) s := by
  have hlimit : (frameLimit none (opened s).display : ℕ∞) = (opened s).display.left :=
    frameLimit_none hquit
  have hle : frameLimit none (opened s).display ≤ count.toNat :=
    Nat.cast_le.1 (hlimit.trans_le hcount)
  obtain ⟨extra, hextra⟩ := Nat.exists_eq_add_of_le hle
  have hframes : frames (frameLimit (some count) (opened s).display) 0 (opened s) =
      frames (frameLimit none (opened s).display) 0 (opened s) := by
    show frames count.toNat 0 (opened s) = _
    rw [hextra]
    exact frames_add_of_left_le (s := opened s) hsize hlimit.ge extra 0
  cases hnone : frames (frameLimit none (opened s).display) 0 (opened s) with
  | ok n s' => rw [run_of_ok hnone, run_of_ok (hframes.trans hnone)]
  | error fault s' => rw [run_of_error hnone, run_of_error (hframes.trans hnone)]

/-- **What a run comes to.** A run that is not stopped has as many frames as the smaller of its
limit and the pumps that are left; frames, ticks and pumps grow by that number, and each step of
these frames executes an instruction, skips a word or finds the machine waiting for a key. A run
that is stopped grows frames and ticks by the number of its whole frames, and pumps by one more.
The recorder is closed either way. -/
theorem run_accounts {s : Session Recorder} {limit : Option Int}
    (hsize : s.emulator.machine.memory.size = memorySize)
    (hbound : limit = none → s.display.quitAfter ≠ none) :
    (∀ n s', run limit s = .ok n s' →
      (n : ℕ∞) = min (bound limit)
          (bound (s.display.quitAfter.map fun (count : Int) => count - s.display.pumps)) ∧
        s'.emulator.frames = s.emulator.frames + n ∧
        s'.emulator.machine.timers.ticks = s.emulator.machine.timers.ticks + n ∧
        s'.display.pumps = s.display.pumps + n ∧
        (n * s.emulator.cyclesPerFrame : Int) =
          (s'.emulator.machine.executed - s.emulator.machine.executed) +
            (s'.emulator.skipped.size - s.emulator.skipped.size) + idleSteps n (opened s) ∧
        s'.display.isOpen = false) ∧
    ∀ fault s', run limit s = .error fault s' →
      ∃ f middle last, frames f 0 (opened s) = .ok f middle ∧ frame middle = .error fault last ∧
        s' = closed last ∧
        s'.emulator.frames = s.emulator.frames + f ∧
        s'.emulator.machine.timers.ticks = s.emulator.machine.timers.ticks + f ∧
        s'.display.pumps = s.display.pumps + (f + 1) ∧
        s'.display.isOpen = false := by
  constructor
  · intro n s' h
    cases hframes : frames (frameLimit limit (opened s).display) 0 (opened s) with
    | error fault last =>
      rw [run_of_error hframes] at h
      cases h
    | ok count last =>
      rw [run_of_ok hframes] at h
      cases h
      obtain ⟨k, hn, hk, hcounted, hwork⟩ := frames_ok (s := opened s) hsize hframes
      rw [Nat.zero_add] at hn
      subst hn
      -- Opening and closing the recorder does no work.
      have hbalance : last.emulator.machine.executed + last.emulator.skipped.size +
          idleSteps n (opened s) = s.emulator.machine.executed + s.emulator.skipped.size +
          n * s.emulator.cyclesPerFrame := hwork
      refine ⟨hk.trans (min_frameLimit hbound), hcounted.frames_eq, hcounted.ticks_eq,
        hcounted.pumps_eq, ?_, rfl⟩
      show (n * s.emulator.cyclesPerFrame : Int) =
        (last.emulator.machine.executed - s.emulator.machine.executed) +
          (last.emulator.skipped.size - s.emulator.skipped.size) + idleSteps n (opened s)
      rw [← Int.natCast_mul]
      omega
  · intro fault s' h
    cases hframes : frames (frameLimit limit (opened s).display) 0 (opened s) with
    | ok count last =>
      rw [run_of_ok hframes] at h
      cases h
    | error first last =>
      rw [run_of_error hframes] at h
      cases h
      obtain ⟨f, middle, hwhole, hlast⟩ := frames_error hframes
      rw [Nat.zero_add] at hwhole
      obtain ⟨k, hk, -, hcounted, -⟩ := frames_ok (s := opened s) hsize hwhole
      rw [Nat.zero_add] at hk
      subst hk
      have hends := frame_ends (hcounted.size_eq.trans hsize)
      rw [hlast] at hends
      cases hends with
      | stopped _ hstopped =>
        -- The last pump was counted, but its frame was not.
        have htotal := hcounted.trans hstopped
        exact ⟨f, middle, last, hwhole, hlast, rfl, htotal.frames_eq, htotal.ticks_eq,
          htotal.pumps_eq, rfl⟩

/-- A session whose machine waits for a key that nobody presses, and whose recorder has two pumps
left. -/
def waitingSession : Session Recorder where
  emulator :=
    { machine := { Machine.fresh (.ofBytes []) {} with waiting := true }, cpuRate := 180,
      timerRate := 60, strict := true, skipped := #[], frames := 7, programSize := 0 }
  display := { quitAfter := some 5, pumps := 3 }

/-- The six steps of its two frames are all idle. -/
theorem run_accounts_waiting :
    waitingSession.emulator.machine.memory.size = memorySize ∧
      waitingSession.display.quitAfter ≠ none ∧
      ∃ s', run none waitingSession = .ok 2 s' ∧ s'.emulator.frames = 9 ∧ s'.display.pumps = 5 ∧
        idleSteps 2 (opened waitingSession) = 6 ∧ s'.display.isOpen = false := by
  have hsize : waitingSession.emulator.machine.memory.size = memorySize := rfl
  have hquit : waitingSession.display.quitAfter ≠ none := by decide
  have hidle : idleSteps 2 (opened waitingSession) = 6 := by decide +kernel
  have htwo : EStateM.run' (run none) waitingSession = some 2 := by decide +kernel
  obtain ⟨s', hrun⟩ := exists_of_run_eq htwo
  obtain ⟨-, hframes, -, hpumps, -, hopen⟩ :=
    (run_accounts hsize fun _ => hquit).1 2 s' hrun
  exact ⟨hsize, hquit, s', hrun, hframes, hpumps, hidle, hopen⟩

end Session

end ChipEight
