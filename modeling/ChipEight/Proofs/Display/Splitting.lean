import ChipEight.Proofs.Display.Frames

/-!
# Runs in two parts

Between two frames of a run nothing is kept but the session itself. So a run may be ended after some
frames and another one begun, and nobody can tell.

**Theorem (`run_split`).** A run of at most `a + b` frames ends as a run of at most `a` frames and
then one of at most `b` do: in the same session, with as many frames as both have together. If a
fault stops it, the same fault stops the first or the second of them and leaves the same session.

Three things could go wrong where the runs meet. The recorder may have told the first one to stop;
then it tells the second one the same (`frames_of_isDone`). The second one counts its frames from
zero (`frames_from`). And the recorder is closed and opened again, which changes nothing because it
was open all the time (`isOpen_frames`).
-/

namespace ChipEight.Session

variable {s s' : Session Recorder} {fault : Fault}

/-! ## The recorder stays open -/

theorem isOpen_pump {goOn : Bool} (h : pump s = .ok goOn s') :
    s'.display.isOpen = s.display.isOpen := by
  cases hdone : s.display.isDone with
  | true =>
    have hlast := Recorder.pump_of_isDone s.emulator.machine hdone
    rw [pump_of_ok (t := (s.emulator.machine, s.display)) hlast] at h
    cases h
    rfl
  | false =>
    obtain ⟨t, ⟨keypad, events, rfl⟩, hpump | ⟨fault, hpump⟩⟩ :=
      Recorder.pump_of_not_isDone s.emulator.machine hdone
    · rw [pump_of_ok hpump] at h
      cases h
      rfl
    · rw [pump_of_error hpump] at h
      cases h

theorem isOpen_present {sound shown : Bool} (h : present sound s = .ok shown s') :
    s'.display.isOpen = s.display.isOpen := by
  obtain ⟨_, screen, shots, soundFrames, hpresent⟩ :=
    Recorder.exists_present sound s.emulator.machine.screen s.display
  rw [present_of_ok hpresent] at h
  cases h
  rfl

theorem display_onEmulator {α : Type} {action : Emulator.Action α} {a : α}
    (h : onEmulator action s = .ok a s') : s'.display = s.display := by
  cases haction : action s.emulator with
  | ok b e =>
    rw [onEmulator_of_ok haction] at h
    cases h
    rfl
  | error fault e =>
    rw [onEmulator_of_error haction] at h
    cases h

/-- A frame that happens is a pump, a frame of the emulator and a look at the screen. -/
theorem frame_eq_ok {goesOn : Bool} (h : frame s = .ok goesOn s') :
    (goesOn = false ∧ s.display.isDone = true ∧ s' = s) ∨
      goesOn = true ∧ ∃ pumped ran executed sound shown, pump s = .ok true pumped ∧
        onEmulator Emulator.runFrame pumped = .ok executed ran ∧
        present sound ran = .ok shown s' := by
  rcases pump_cases s with ⟨hdone, -⟩ | ⟨-, pumped, -, -, hpump | ⟨fault, hpump⟩⟩
  · rw [frame_of_isDone hdone] at h
    cases h
    exact .inl ⟨rfl, hdone, rfl⟩
  · rw [frame_of_pump hpump] at h
    obtain ⟨executed, ran, hran, h⟩ := bind_eq_ok.1 h
    rw [get_bind] at h
    obtain ⟨shown, _, hshown, h⟩ := bind_eq_ok.1 h
    cases h
    exact .inr ⟨rfl, pumped, ran, executed, _, shown, hpump, hran, hshown⟩
  · rw [frame, bind_of_error hpump] at h
    cases h

theorem isOpen_frame {goesOn : Bool} (h : frame s = .ok goesOn s') :
    s'.display.isOpen = s.display.isOpen := by
  rcases frame_eq_ok h with ⟨-, -, rfl⟩ | ⟨-, pumped, ran, _, _, _, hpump, hran, hshown⟩
  · rfl
  · rw [isOpen_present hshown, display_onEmulator hran, isOpen_pump hpump]

theorem isOpen_frames {count done total : Nat} (h : frames count done s = .ok total s') :
    s'.display.isOpen = s.display.isOpen := by
  induction count generalizing done s with
  | zero =>
    cases h
    rfl
  | succ count ih =>
    obtain ⟨goesOn, middle, hframe, -⟩ := bind_eq_ok.1 h
    have hfirst := isOpen_frame hframe
    rw [frames_succ count done hframe] at h
    cases goesOn with
    | true => exact (ih h).trans hfirst
    | false =>
      cases h
      exact hfirst

/-- To close an open recorder and to open it again leaves it as it was. -/
theorem opened_closed (h : s.display.isOpen = true) : opened (closed s) = s := by
  show ({ s with display := { s.display with isOpen := true } } : Session Recorder) = s
  rw [← h]

/-! ## Frames in two parts -/

/-- A recorder that tells to stop goes on telling it. -/
theorem frames_of_isDone (count done : Nat) (h : s.display.isDone = true) :
    frames count done s = .ok done s := by
  cases count with
  | zero => rfl
  | succ count => exact frames_succ count done (frame_of_isDone h)

theorem frames_succ_bind {α : Type} {goesOn : Bool} {middle : Session Recorder} (count done : Nat)
    (next : Nat → Action Recorder α) (h : frame s = .ok goesOn middle) :
    (frames (count + 1) done >>= next) s =
      if goesOn then (frames count (done + 1) >>= next) middle else next done middle := by
  have hsucc := frames_succ count done h
  cases goesOn with
  | true => exact bind_of_eq hsucc
  | false => exact bind_of_ok hsucc

/-- From which number frames are counted makes a difference to their count only. -/
theorem frames_from (before count done : Nat) (s : Session Recorder) :
    frames count (before + done) s =
      (do
        let n ← frames count done
        return before + n : Action Recorder Nat) s := by
  induction count generalizing done s with
  | zero => rfl
  | succ count ih =>
    cases hframe : frame s with
    | error fault middle =>
      rw [frames_succ_of_error hframe, bind_of_error (frames_succ_of_error hframe)]
    | ok goesOn middle =>
      rw [frames_succ count (before + done) hframe, frames_succ_bind count done _ hframe]
      cases goesOn with
      | false => rfl
      | true => exact ih (done + 1) middle

/-- Frames go on where those before them ended. -/
theorem frames_add (a b done : Nat) (s : Session Recorder) :
    frames (a + b) done s = (frames a done >>= frames b) s := by
  induction a generalizing done s with
  | zero =>
    rw [Nat.zero_add]
    exact (bind_of_ok rfl).symm
  | succ a ih =>
    rw [Nat.add_right_comm]
    cases hframe : frame s with
    | error fault middle =>
      rw [frames_succ_of_error hframe, bind_of_error (frames_succ_of_error hframe)]
    | ok goesOn middle =>
      rw [frames_succ (a + b) done hframe, frames_succ_bind a done _ hframe]
      -- A recorder that tells to stop in the first part tells it again in the second one.
      rcases frame_eq_ok hframe with ⟨rfl, hdone, rfl⟩ | ⟨rfl, -⟩
      · exact (frames_of_isDone b done hdone).symm
      · exact ih (done + 1) middle

/-! ## Runs in two parts -/

/-- A run is a run of some of its frames and then a run of the others. -/
theorem run_add (a b : Nat) (s : Session Recorder) :
    run (some ((a + b : Nat) : Int)) s =
      (do
        let first ← run (some (a : Int))
        let second ← run (some (b : Int))
        return first + second : Action Recorder Nat) s := by
  have hadd : frames (frameLimit (some ((a + b : Nat) : Int)) (opened s).display) 0 (opened s) =
      (frames a 0 >>= frames b) (opened s) := frames_add a b 0 (opened s)
  cases hfirst : frames a 0 (opened s) with
  | error fault middle =>
    rw [bind_of_error hfirst] at hadd
    have hrun : run (some (a : Int)) s = .error fault (closed middle) := run_of_error hfirst
    rw [bind_of_error hrun]
    exact run_of_error hadd
  | ok first middle =>
    -- The second run opens what the first one closed, and counts its frames from zero.
    have hopen : opened (closed middle) = middle := opened_closed (isOpen_frames hfirst)
    have hcount := frames_from first b 0 middle
    rw [bind_of_ok hfirst, ← Nat.add_zero first, hcount] at hadd
    have hrun : run (some (a : Int)) s = .ok first (closed middle) := run_of_ok hfirst
    rw [bind_of_ok hrun]
    cases hsecond : frames b 0 middle with
    | ok second last =>
      rw [bind_of_ok hsecond] at hadd
      rw [← hopen] at hsecond
      have hlast : run (some (b : Int)) (closed middle) = .ok second (closed last) :=
        run_of_ok hsecond
      rw [bind_of_ok hlast]
      exact run_of_ok hadd
    | error fault last =>
      rw [bind_of_error hsecond] at hadd
      rw [← hopen] at hsecond
      have hlast : run (some (b : Int)) (closed middle) = .error fault (closed last) :=
        run_of_error hsecond
      rw [bind_of_error hlast]
      exact run_of_error hadd

/-- **Splitting a run does not change it.** It ends with `n` frames exactly if its two parts do
together, in the same session. It is stopped by a fault exactly if the first part is, or the second
one after the first, and the session that is left is the same. -/
theorem run_split (a b : Nat) (s : Session Recorder) :
    (∀ n s', run (some ((a + b : Nat) : Int)) s = .ok n s' ↔
      ∃ first second middle, run (some (a : Int)) s = .ok first middle ∧
        run (some (b : Int)) middle = .ok second s' ∧ n = first + second) ∧
    ∀ fault s', run (some ((a + b : Nat) : Int)) s = .error fault s' ↔
      run (some (a : Int)) s = .error fault s' ∨
        ∃ first middle, run (some (a : Int)) s = .ok first middle ∧
          run (some (b : Int)) middle = .error fault s' := by
  rw [run_add]
  constructor
  · intro n s'
    simp only [bind_eq_ok]
    constructor
    · rintro ⟨first, middle, hfirst, second, last, hsecond, hsum⟩
      cases hsum
      exact ⟨first, second, middle, hfirst, hsecond, rfl⟩
    · rintro ⟨first, second, middle, hfirst, hsecond, rfl⟩
      exact ⟨first, middle, hfirst, second, s', hsecond, rfl⟩
  · intro fault s'
    simp only [bind_eq_error]
    constructor
    · rintro (hfirst | ⟨first, middle, hfirst, hsecond | ⟨_, _, -, hsum⟩⟩)
      · exact .inl hfirst
      · exact .inr ⟨first, middle, hfirst, hsecond⟩
      · cases hsum
    · rintro (hfirst | ⟨first, middle, hfirst, hsecond⟩)
      · exact .inl hfirst
      · exact .inr ⟨first, middle, hfirst, .inl hsecond⟩

end ChipEight.Session
