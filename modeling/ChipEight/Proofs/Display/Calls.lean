import ChipEight.Proofs.Display.Keys
import ChipEight.Proofs.Emulator.Trace

/-!
# What a session does to its emulator

Much is known about calls on an emulator, in whatever order they come. A run of a session is such
calls: key events that its display delivers, frames, and looks at the screen.

**Theorem (`exists_calls_run`).** A run leaves the emulator as some calls of these kinds do, whether
it ends by itself or is stopped by a fault.

This needs of the display that it does nothing else to the machine (`Display.Restrained`), which is
so for windows and for recorders. Actions of a session that come to calls are closed under sequence
(`Calls.bind`), and a run is made of pumps, frames of the emulator and looks at the screen in
sequence. For one thing, every instruction of a run is recorded (`exists_logged_run`).
-/

namespace ChipEight

/-! ## Displays -/

/-- A display does nothing to a machine but deliver key events, and nothing to a screen but take its
cells. -/
structure Display.Restrained (δ : Type) [Display δ] : Prop where
  pump : ∀ (m : Machine) (d : δ), ∃ events : List KeyEvent,
    (leftBy Display.pump (m, d)).1 = m.afterAll (events.map KeyEvent.call)
  present : ∀ (sound : Bool) (screen : Framebuffer) (d : δ),
    (leftBy (Display.present sound) (screen, d)).1 = screen.consume.2

theorem Window.restrained : Display.Restrained Window where
  pump m w := by
    rcases none_or_first HostEvent.isQuit w.queue with
      hquiet | ⟨before, event, rest, hqueue, hbefore, hevent⟩
    · have hpump : Display.pump (m, w) = _ := Window.pump_of_quiet hquiet
      exact ⟨w.queue.filterMap HostEvent.keyEvent?, congrArg Prod.fst (leftBy_of_ok hpump)⟩
    · have hpump : Display.pump (m, w) = _ := Window.pump_of_quit hqueue hbefore hevent
      exact ⟨before.filterMap HostEvent.keyEvent?, congrArg Prod.fst (leftBy_of_ok hpump)⟩
  present sound screen w := by
    cases hdirty : screen.dirty with
    | true =>
      have hpresent : Display.present sound (screen, w) = _ :=
        Window.present_of_dirty sound w hdirty
      exact congrArg Prod.fst (leftBy_of_ok hpresent)
    | false =>
      have hpresent : Display.present sound (screen, w) = _ :=
        Window.present_of_clean sound w hdirty
      rw [Framebuffer.consume_of_clean hdirty]
      exact congrArg Prod.fst (leftBy_of_ok hpresent)

namespace Recorder

theorem restrained : Display.Restrained Recorder where
  pump m r := by
    cases hdone : r.isDone with
    | true =>
      have hpump : Display.pump (m, r) = _ := pump_of_isDone m hdone
      exact ⟨[], congrArg Prod.fst (leftBy_of_ok hpump)⟩
    | false =>
      rcases KeyEvent.keys_or_bad r.events with hkeys | ⟨before, bad, later, hqueue, hkeys, hbad⟩
      · have hpump : Display.pump (m, r) = _ := pump_of_keys m hdone hkeys
        refine ⟨r.events, ?_⟩
        rw [leftBy_of_ok hpump]
        exact Machine.withKeys_eq hkeys m
      · have hpump : Display.pump (m, r) = _ := pump_of_bad m hdone hqueue hkeys hbad
        refine ⟨before, ?_⟩
        rw [leftBy, hpump]
        exact Machine.withKeys_eq hkeys m
  present sound screen r := by
    cases hdirty : screen.dirty with
    | true =>
      have hpresent : Display.present sound (screen, r) = _ := present_of_dirty sound r hdirty
      exact congrArg Prod.fst (leftBy_of_ok hpresent)
    | false =>
      have hpresent : Display.present sound (screen, r) = _ := present_of_clean sound r hdirty
      rw [Framebuffer.consume_of_clean hdirty]
      exact congrArg Prod.fst (leftBy_of_ok hpresent)

end Recorder

/-! ## Calls -/

/-- Whether a call is one of those that a session makes. -/
def Emulator.Call.isOfSession : Emulator.Call → Bool
  | .runFrame => true
  | .onMachine call =>
    match call with
    | .keyDown _ | .keyUp _ | .consume => true
    | .load _ _ | .cycle | .tick | .skipWord | .trace _ => false
  | .load _ _ | .step | .tick => false

theorem Emulator.Call.isOrdinary_of_isOfSession {call : Emulator.Call}
    (h : call.isOfSession = true) : call.isOrdinary = true := by
  cases call with
  | runFrame => rfl
  | onMachine call =>
    cases call with
    | keyDown _ | keyUp _ | consume => rfl
    | load _ _ | cycle | tick | skipWord | trace _ => cases h
  | load _ _ | step | tick => cases h

/-- The other emulator comes about by calls of a session. -/
def Emulator.Called (e e' : Emulator) : Prop :=
  ∃ calls : List Emulator.Call, (∀ call ∈ calls, call.isOfSession = true) ∧ e' = e.afterAll calls

namespace Emulator.Called

variable {e e' e'' : Emulator}

theorem refl (e : Emulator) : Called e e := ⟨[], by simp, rfl⟩

theorem trans (h : Called e e') (h' : Called e' e'') : Called e e'' := by
  obtain ⟨calls, hcalls, rfl⟩ := h
  obtain ⟨calls', hcalls', rfl⟩ := h'
  exact ⟨calls ++ calls', List.forall_mem_append.2 ⟨hcalls, hcalls'⟩, List.foldl_append.symm⟩

theorem of_call {call : Emulator.Call} (h : call.isOfSession = true) : Called e (e.after call) :=
  ⟨[call], by simpa using h, rfl⟩

theorem of_keys (e : Emulator) (events : List KeyEvent) :
    Called e { e with machine := e.machine.afterAll (events.map KeyEvent.call) } := by
  induction events generalizing e with
  | nil => exact refl e
  | cons event rest ih =>
    have hevent : (Emulator.Call.onMachine event.call).isOfSession = true := by
      obtain ⟨down, code⟩ := event
      cases down <;> rfl
    exact (of_call hevent).trans (ih (e.after (.onMachine event.call)))

end Emulator.Called

/-! ## Runs -/

namespace Session

variable {δ α β : Type}

/-- The action comes to calls on the emulator. -/
def Calls (action : Action δ α) : Prop :=
  ∀ s : Session δ, s.emulator.Called (leftBy action s).emulator

theorem Calls.bind {action : Action δ α} {next : α → Action δ β} (h : Calls action)
    (hnext : ∀ a, Calls (next a)) : Calls (action >>= next) := by
  intro s
  have hfirst := h s
  cases haction : action s with
  | ok a middle =>
    rw [leftBy_of_ok haction] at hfirst
    have hwhole : leftBy (action >>= next) s = leftBy (next a) middle := by
      rw [leftBy, bind_of_ok haction]
      rfl
    rw [hwhole]
    exact hfirst.trans (hnext a middle)
  | error fault middle =>
    have hwhole : leftBy (action >>= next) s = leftBy action s := by
      rw [leftBy, bind_of_error haction, leftBy, haction]
    rw [hwhole]
    exact hfirst

theorem calls_pure (a : α) : Calls (pure a : Action δ α) := fun s => .refl s.emulator

theorem calls_get : Calls (get : Action δ (Session δ)) := fun s => .refl s.emulator

theorem calls_runFrame : Calls (onEmulator Emulator.runFrame : Action δ Nat) := by
  intro s
  have hleft : (leftBy (onEmulator Emulator.runFrame) s).emulator =
      s.emulator.after .runFrame := by
    show _ = leftBy Emulator.runFrame s.emulator
    unfold leftBy onEmulator
    cases Emulator.runFrame s.emulator <;> rfl
  rw [hleft]
  exact .of_call rfl

variable [Display δ] (h : Display.Restrained δ)

include h

theorem calls_pump : Calls (pump : Action δ Bool) := by
  intro s
  obtain ⟨events, hevents⟩ := h.pump s.emulator.machine s.display
  have hleft : (leftBy pump s).emulator =
      { s.emulator with
        machine := (leftBy Display.pump (s.emulator.machine, s.display)).1 } := by
    unfold leftBy pump
    cases Display.pump (s.emulator.machine, s.display) <;> rfl
  rw [hleft, hevents]
  exact .of_keys s.emulator events

theorem calls_present (sound : Bool) : Calls (present sound : Action δ Bool) := by
  intro s
  have hscreen := h.present sound s.emulator.machine.screen s.display
  have hleft : (leftBy (present sound) s).emulator = s.emulator.after (.onMachine .consume) := by
    unfold leftBy at hscreen ⊢
    cases hpresent : Display.present sound (s.emulator.machine.screen, s.display) with
    | ok shown t | error fault t =>
      rw [hpresent] at hscreen
      simp only [present, hpresent]
      show (_ : Emulator) = { s.emulator with machine :=
        { s.emulator.machine with screen := s.emulator.machine.screen.consume.2 } }
      rw [← hscreen]
  rw [hleft]
  exact .of_call rfl

theorem calls_frame : Calls (frame : Action δ Bool) := by
  refine (calls_pump h).bind fun goOn => ?_
  cases goOn with
  | true =>
    refine calls_runFrame.bind fun _ => calls_get.bind fun s => ?_
    exact (calls_present h s.emulator.machine.timers.soundOn).bind fun _ => calls_pure true
  | false => exact calls_pure false

theorem calls_frames (count done : Nat) : Calls (frames count done : Action δ Nat) := by
  induction count generalizing done with
  | zero => exact calls_pure done
  | succ count ih =>
    refine (calls_frame h).bind fun goOn => ?_
    cases goOn with
    | true => exact ih (done + 1)
    | false => exact calls_pure done

/-- **A run is calls.** -/
theorem exists_calls_run (limit : Option Int) (s : Session δ) :
    ∃ calls : List Emulator.Call, (∀ call ∈ calls, call.isOfSession = true) ∧
      (leftBy (run limit) s).emulator = s.emulator.afterAll calls := by
  let opened : Session δ := { s with display := Display.opened s.display }
  have hframes := calls_frames h (frameLimit limit opened.display) 0 opened
  have hleft : (leftBy (run limit) s).emulator =
      (leftBy (frames (frameLimit limit opened.display) 0) opened).emulator := by
    unfold leftBy run
    dsimp only
    cases frames (frameLimit limit opened.display) 0 opened <;> rfl
  rw [hleft]
  exact hframes

/-- A run is steps that are all recorded, and nothing else in it moves on. -/
theorem exists_logged_run (limit : Option Int) {s : Session δ}
    (hsize : s.emulator.machine.memory.size = memorySize) :
    ∃ starts, s.emulator.Logged starts (leftBy (run limit) s).emulator := by
  obtain ⟨calls, hcalls, hrun⟩ := exists_calls_run h limit s
  have hordinary : ∀ call ∈ calls, call.isOrdinary = true := fun call hmem =>
    Emulator.Call.isOrdinary_of_isOfSession (hcalls call hmem)
  rw [hrun]
  exact ⟨_, .afterAll hsize hordinary⟩

end Session

end ChipEight
