import ChipEight.Proofs.Display.Frames
import ChipEight.Proofs.Emulator.Pace

/-!
# Runs that nobody disturbs

A recorder without events presses no key and leaves it to the limit to end the run. Then a run is
the sequence of steps of its emulator and nothing else: if no step is stopped it ends with all the
frames of the limit (`run_of_goes`), and otherwise with the fault of the first step that is, in the
state that this step leaves (`run_of_stops`).
-/

namespace ChipEight.Session

open Emulator (Goes)

variable {s : Session Recorder}

/-- No key event waits, and nothing but the limit ends a run. -/
structure Undisturbed (s : Session Recorder) : Prop where
  quitAfter_eq : s.display.quitAfter = none
  events_eq : s.display.events = []

/-! ## One frame -/

/-- The session after a pump without events. -/
def pumped (s : Session Recorder) : Session Recorder :=
  { s with display := { s.display with pumps := s.display.pumps + 1, events := [] } }

theorem Undisturbed.pump_eq (h : s.Undisturbed) : pump s = .ok true s.pumped := by
  have hgoesOn : ¬ s.display.isDone = true := by
    rw [Recorder.isDone, h.quitAfter_eq]
    exact Bool.false_ne_true
  refine pump_of_ok (t := (s.emulator.machine, _)) ?_
  show Recorder.pump (s.emulator.machine, s.display) = _
  rw [Recorder.pump, if_neg hgoesOn, h.events_eq]
  rfl

theorem present_shown (sound : Bool) (s : Session Recorder) :
    ∃ result shots soundFrames,
      present sound s = .ok result ⟨s.emulator.shown, { s.display with shots, soundFrames }⟩ := by
  cases hdirty : s.emulator.machine.screen.dirty with
  | true =>
    have hpresent : Display.present sound (s.emulator.machine.screen, s.display) = _ :=
      Recorder.present_of_dirty sound s.display hdirty
    exact ⟨true, _, _, present_of_ok hpresent⟩
  | false =>
    have hpresent : Display.present sound (s.emulator.machine.screen, s.display) = _ :=
      Recorder.present_of_clean sound s.display hdirty
    refine ⟨false, s.display.shots, s.display.soundFrames + sound.toNat, ?_⟩
    rw [present_of_ok hpresent, Emulator.shown, Framebuffer.consume_of_clean hdirty]

section Frame

variable (h : s.Undisturbed)

include h

theorem frame_of_goes (hgoes : ∀ k < s.emulator.cyclesPerFrame, (s.emulator.paced k).Goes) :
    ∃ s' : Session Recorder, frame s = .ok true s' ∧ s'.Undisturbed ∧
      s'.emulator = s.emulator.paced s.emulator.cyclesPerFrame := by
  obtain ⟨total, last, hrun, hlast⟩ := Emulator.runFrame_of_goes hgoes
  have hmiddle : onEmulator Emulator.runFrame s.pumped =
      .ok total { s.pumped with emulator := last } := onEmulator_of_ok hrun
  obtain ⟨result, shots, soundFrames, hpresent⟩ :=
    present_shown last.machine.timers.soundOn { s.pumped with emulator := last }
  refine ⟨⟨last.shown, { s.pumped.display with shots, soundFrames }⟩, ?_, ⟨h.quitAfter_eq, rfl⟩,
    hlast⟩
  rw [frame_of_pump h.pump_eq, bind_of_ok hmiddle, get_bind, bind_of_ok hpresent]
  rfl

theorem frame_of_stops {k : Nat} {fault : Fault} {e' : Emulator}
    (hk : k < s.emulator.cyclesPerFrame) (hbefore : ∀ j < k, (s.emulator.paced j).Goes)
    (hstop : Emulator.step (s.emulator.paced k) = .error fault e') :
    ∃ s' : Session Recorder, frame s = .error fault s' ∧ s'.emulator = e' := by
  have hmiddle : onEmulator Emulator.runFrame s.pumped =
      .error fault { s.pumped with emulator := e' } :=
    onEmulator_of_error (Emulator.runFrame_of_stops hk hbefore hstop)
  refine ⟨{ s.pumped with emulator := e' }, ?_, rfl⟩
  rw [frame_of_pump h.pump_eq, bind_of_error hmiddle]

end Frame

/-! ## All frames -/

section Frames

variable (h : s.Undisturbed) (hsize : s.emulator.machine.memory.size = memorySize)

include h hsize

/-- A whole frame takes its steps off those of all frames, and the rest goes on from its end. -/
theorem frame_then (hgoes : ∀ k < s.emulator.cyclesPerFrame, (s.emulator.paced k).Goes) :
    ∃ s' : Session Recorder, frame s = .ok true s' ∧ s'.Undisturbed ∧
      s'.emulator.machine.memory.size = memorySize ∧
      s'.emulator.cyclesPerFrame = s.emulator.cyclesPerFrame ∧
      ∀ k, s'.emulator.paced k = s.emulator.paced (s.emulator.cyclesPerFrame + k) := by
  obtain ⟨s', hframe, hrest, hend⟩ := frame_of_goes h hgoes
  obtain ⟨hsize', hpace⟩ := Emulator.paced_keeps hsize s.emulator.cyclesPerFrame
  have hadd := Emulator.paced_add hsize 1
  rw [Nat.mul_one] at hadd
  rw [← hend] at hsize' hpace hadd
  exact ⟨s', hframe, hrest, hsize', hpace, fun k => (hadd k).symm⟩

theorem frames_of_goes {count done : Nat}
    (hgoes : ∀ k < s.emulator.cyclesPerFrame * count, (s.emulator.paced k).Goes) :
    ∃ s' : Session Recorder, frames count done s = .ok (done + count) s' ∧
      s'.emulator = s.emulator.paced (s.emulator.cyclesPerFrame * count) := by
  induction count generalizing s done with
  | zero => exact ⟨s, rfl, rfl⟩
  | succ count ih =>
    rw [Nat.mul_succ] at hgoes ⊢
    obtain ⟨middle, hframe, hrest, hsize', hpace, hpaced⟩ :=
      frame_then h hsize fun k hk => hgoes k (Nat.lt_add_left _ hk)
    obtain ⟨s', hframes, hend⟩ := ih hrest hsize' fun k hk => by
      rw [hpace] at hk
      rw [hpaced]
      exact hgoes _ (by omega)
    refine ⟨s', ?_, ?_⟩
    · rw [frames_succ count done hframe, if_pos rfl, hframes, Nat.add_right_comm]
      rfl
    · rw [hend, hpaced, hpace, Nat.add_comm]

theorem frames_of_stops {count done k : Nat} {fault : Fault} {e' : Emulator}
    (hk : k < s.emulator.cyclesPerFrame * count) (hbefore : ∀ j < k, (s.emulator.paced j).Goes)
    (hstop : Emulator.step (s.emulator.paced k) = .error fault e') :
    ∃ s' : Session Recorder, frames count done s = .error fault s' ∧ s'.emulator = e' := by
  induction count generalizing s done k with
  | zero => exact absurd hk (Nat.not_lt_zero k)
  | succ count ih =>
    rcases Nat.lt_or_ge k s.emulator.cyclesPerFrame with hfirst | hlater
    · -- The step is one of the first frame.
      obtain ⟨s', hframe, hend⟩ := frame_of_stops h hfirst hbefore hstop
      exact ⟨s', frames_succ_of_error hframe, hend⟩
    -- The first frame is whole, and the step is one of the others.
    · obtain ⟨later, rfl⟩ := Nat.exists_eq_add_of_le hlater
      obtain ⟨middle, hframe, hrest, hsize', hpace, hpaced⟩ :=
        frame_then h hsize fun k hk => hbefore k (Nat.lt_add_right later hk)
      rw [frames_succ count done hframe, if_pos rfl]
      rw [← hpaced] at hstop
      refine ih hrest hsize' ?_ (fun j hj => ?_) hstop
      · rw [Nat.mul_succ] at hk
        rw [hpace]
        omega
      · rw [hpaced]
        exact hbefore _ (Nat.add_lt_add_left hj _)

theorem run_of_goes {limit : Int}
    (hgoes : ∀ k < s.emulator.cyclesPerFrame * limit.toNat, (s.emulator.paced k).Goes) :
    ∃ s' : Session Recorder, run (some limit) s = .ok limit.toNat s' ∧
      s'.emulator = s.emulator.paced (s.emulator.cyclesPerFrame * limit.toNat) := by
  have hopened : (opened s).Undisturbed := ⟨h.quitAfter_eq, h.events_eq⟩
  obtain ⟨s', hframes, hend⟩ : ∃ s' : Session Recorder,
      frames limit.toNat 0 (opened s) = .ok (0 + limit.toNat) s' ∧ _ :=
    frames_of_goes hopened hsize hgoes
  rw [Nat.zero_add] at hframes
  exact ⟨closed s', run_of_ok hframes, hend⟩

theorem run_of_stops {limit : Int} {k : Nat} {fault : Fault} {e' : Emulator}
    (hk : k < s.emulator.cyclesPerFrame * limit.toNat)
    (hbefore : ∀ j < k, (s.emulator.paced j).Goes)
    (hstop : Emulator.step (s.emulator.paced k) = .error fault e') :
    ∃ s' : Session Recorder, run (some limit) s = .error fault s' ∧ s'.emulator = e' := by
  have hopened : (opened s).Undisturbed := ⟨h.quitAfter_eq, h.events_eq⟩
  obtain ⟨s', hframes, hend⟩ : ∃ s' : Session Recorder,
      frames limit.toNat 0 (opened s) = .error fault s' ∧ _ :=
    frames_of_stops hopened hsize hk hbefore hstop
  exact ⟨closed s', run_of_error hframes, hend⟩

end Frames

end ChipEight.Session
