import ChipEight.Display.Window
import ChipEight.Proofs.Display.Frames

/-!
# Windows and recorders feed a machine alike

A window gets its events from the host, by the names of keys. A recorder gets key events, by codes.

**Translation** (`HostEvent.keyEvent?`). The keys in the layout stand for keys of the machine; other
keys, and the event that asks to quit, stand for no key event.

**Theorem (`pumps_and_presents_agree`).** A window without an event that asks to quit leaves the
machine that a recorder leaves to which the translated events were queued in their order. A window
with one tells to stop, and what reached the machine are the translated events before the first such
event. Either display shows a screen exactly if it is marked, and takes the mark away.

A pump of the window is followed event by event (`Window.pump_cons`); a recorder delivers the
translated events at once (`Recorder.pump_of_keys`). Both come to the same calls on the machine
(`Machine.withEvents`).
-/

namespace ChipEight

/-! ## Translation -/

/-- The key event for which an event of the host stands, if it stands for one. -/
def HostEvent.keyEvent? : HostEvent → Option KeyEvent
  | .keyDown name => (keyLayout.lookup name).map fun key => ⟨true, key.val⟩
  | .keyUp name => (keyLayout.lookup name).map fun key => ⟨false, key.val⟩
  | .quit => none

/-- The call that delivers a key event. -/
def KeyEvent.call (event : KeyEvent) : Machine.Call :=
  if event.down then .keyDown event.code else .keyUp event.code

/-- A key event that is not refused is delivered by its call. -/
theorem KeyEvent.after_call_of_ok {event : KeyEvent} {m m' : Machine} (h : event.apply m = .ok m') :
    m.after event.call = m' := by
  obtain ⟨down, code⟩ := event
  cases down with
  | true =>
    have hkey : m.keyDown code = .ok m' := h
    show m.orSame (m.keyDown code) = m'
    rw [hkey]
    rfl
  | false =>
    have hkey : m.keyUp code = .ok m' := h
    show m.orSame (m.keyUp code) = m'
    rw [hkey]
    rfl

/-- Delivering key events is making their calls. -/
theorem Machine.withKeys_eq {events : List KeyEvent} (h : ∀ event ∈ events, event.isKey = true)
    (m : Machine) : m.withKeys events = m.afterAll (events.map KeyEvent.call) := by
  induction events generalizing m with
  | nil => rfl
  | cons event rest ih =>
    rw [List.forall_mem_cons] at h
    have hfirst := KeyEvent.after_call_of_ok (KeyEvent.apply_of_isKey h.1 m)
    rw [List.map_cons, Machine.afterAll_cons, hfirst, ← ih h.2, Machine.withKeys_append,
      List.singleton_append]

namespace HostEvent

variable {event : HostEvent} {translated : KeyEvent}

/-- The layout gives codes of keys only. -/
theorem isKey_of_keyEvent? (h : event.keyEvent? = some translated) : translated.isKey = true := by
  cases event with
  | keyDown name | keyUp name =>
    obtain ⟨key, -, rfl⟩ := Option.map_eq_some_iff.1 h
    have hlt := key.isLt
    simp only [KeyEvent.isKey, Bool.and_eq_true, decide_eq_true_eq]
    omega
  | quit => cases h

/-- An event that stands for no key event does nothing to a keypad. -/
theorem apply_of_none (h : event.keyEvent? = none) (k : Keypad) : event.apply k = k := by
  cases event with
  | keyDown name | keyUp name =>
    have hlookup : keyLayout.lookup name = none := Option.map_eq_none_iff.1 h
    simp only [apply, hlookup, Option.map_none, Option.getD_none]
  | quit => rfl

/-- What an event does to the keypad of a machine is the call for which it stands. -/
theorem apply_of_some (h : event.keyEvent? = some translated) (m : Machine) :
    { m with keypad := event.apply m.keypad } = m.after translated.call := by
  cases event with
  | keyDown name =>
    obtain ⟨key, hlookup, rfl⟩ := Option.map_eq_some_iff.1 h
    simp only [apply, hlookup, Option.map_some, Option.getD_some]
    exact (m.after_keyDown key).symm
  | keyUp name =>
    obtain ⟨key, hlookup, rfl⟩ := Option.map_eq_some_iff.1 h
    simp only [apply, hlookup, Option.map_some, Option.getD_some]
    exact (m.after_keyUp key).symm
  | quit => cases h

end HostEvent

namespace Machine

/-- The machine to which the key events were delivered for which events of the host stand. -/
def withEvents (m : Machine) (events : List HostEvent) : Machine :=
  m.afterAll ((events.filterMap HostEvent.keyEvent?).map KeyEvent.call)

theorem withEvents_cons (m : Machine) (event : HostEvent) (rest : List HostEvent) :
    m.withEvents (event :: rest) = { m with keypad := event.apply m.keypad }.withEvents rest := by
  cases htranslated : event.keyEvent? with
  | none =>
    rw [withEvents, List.filterMap_cons_none htranslated, HostEvent.apply_of_none htranslated]
    rfl
  | some translated =>
    rw [withEvents, List.filterMap_cons_some htranslated, HostEvent.apply_of_some htranslated]
    rfl

end Machine

/-! ## Windows -/

namespace Window

variable {m : Machine} {w : Window} {event : HostEvent} {before rest : List HostEvent}

/-- An event that does not ask to quit reaches the keypad, and the pump goes on. -/
theorem pump_cons (h : event.isQuit = false) :
    pump (m, { w with queue := event :: rest }) =
      pump ({ m with keypad := event.apply m.keypad }, { w with queue := rest }) := by
  simp only [pump, deliver, h, Bool.false_eq_true, if_false]

/-- Nothing reaches the keypad from an event that asks to quit on. -/
theorem pump_quit (h : event.isQuit = true) :
    pump (m, { w with queue := event :: rest }) = .ok false (m, { w with queue := [] }) := by
  simp only [pump, deliver, h, if_true]

/-- A pump gets as far as the first event that asks to quit. -/
theorem pump_append (m : Machine) (w : Window) (rest : List HostEvent)
    (h : ∀ event ∈ before, event.isQuit = false) :
    pump (m, { w with queue := before ++ rest }) =
      pump (m.withEvents before, { w with queue := rest }) := by
  induction before generalizing m with
  | nil => rfl
  | cons event before ih =>
    rw [List.forall_mem_cons] at h
    rw [List.cons_append, pump_cons h.1, ih _ h.2, Machine.withEvents_cons]

theorem pump_of_quiet (h : ∀ event ∈ w.queue, event.isQuit = false) :
    pump (m, w) = .ok true (m.withEvents w.queue, { w with queue := [] }) := by
  have hpump := pump_append m w [] h
  rw [List.append_nil] at hpump
  exact hpump

theorem pump_of_quit (hqueue : w.queue = before ++ event :: rest)
    (hbefore : ∀ event ∈ before, event.isQuit = false) (hevent : event.isQuit = true) :
    pump (m, w) = .ok false (m.withEvents before, { w with queue := [] }) := by
  have hpump := pump_append m w (event :: rest) hbefore
  rw [pump_quit hevent, ← hqueue] at hpump
  exact hpump

end Window

/-! ## Recorders -/

namespace Recorder

variable {r : Recorder}

/-- Queue key events in their order. -/
def queueAll (r : Recorder) (events : List KeyEvent) : Recorder :=
  events.foldl (fun r event => if event.down then r.press event.code else r.release event.code) r

theorem queueAll_eq (r : Recorder) (events : List KeyEvent) :
    r.queueAll events = { r with events := r.events ++ events } := by
  induction events generalizing r with
  | nil => simp [queueAll]
  | cons event rest ih =>
    have hqueue : (if event.down then r.press event.code else r.release event.code) =
        r.queue event := by
      obtain ⟨down, code⟩ := event
      cases down <;> rfl
    have hcons : r.queueAll (event :: rest) = (r.queue event).queueAll rest := by
      rw [queueAll, List.foldl_cons, hqueue]
      rfl
    rw [hcons, ih, queue, List.append_assoc, List.singleton_append]

/-- A recorder to which translated events were queued delivers them all. -/
theorem pump_queueAll (m : Machine) (events : List HostEvent) (hempty : r.events = [])
    (hgoesOn : r.isDone = false) :
    pump (m, r.queueAll (events.filterMap HostEvent.keyEvent?)) =
      .ok true (m.withEvents events, { r with pumps := r.pumps + 1, events := [] }) := by
  have hkeys : ∀ event ∈ events.filterMap HostEvent.keyEvent?, event.isKey = true := by
    intro event hmem
    obtain ⟨_, -, htranslated⟩ := List.mem_filterMap.1 hmem
    exact HostEvent.isKey_of_keyEvent? htranslated
  have hdone : isDone { r with events := events.filterMap HostEvent.keyEvent? } = false := hgoesOn
  have hpump := pump_of_keys m hdone hkeys
  rw [Machine.withKeys_eq hkeys] at hpump
  rw [queueAll_eq, hempty, List.nil_append]
  exact hpump

end Recorder

/-! ## Both -/

/-- **Two displays, one machine.** -/
theorem pumps_and_presents_agree (m : Machine) (w : Window) {r : Recorder} (hempty : r.events = [])
    (hgoesOn : r.isDone = false) :
    ((∀ event ∈ w.queue, event.isQuit = false) →
      Window.pump (m, w) = .ok true (m.withEvents w.queue, { w with queue := [] }) ∧
      Recorder.pump (m, r.queueAll (w.queue.filterMap HostEvent.keyEvent?)) =
        .ok true (m.withEvents w.queue, { r with pumps := r.pumps + 1 })) ∧
    ((∃ event ∈ w.queue, event.isQuit = true) →
      ∃ before event rest, w.queue = before ++ event :: rest ∧
        (∀ event ∈ before, event.isQuit = false) ∧ event.isQuit = true ∧
        Window.pump (m, w) = .ok false (m.withEvents before, { w with queue := [] })) ∧
    ∀ (sound : Bool) (screen : Framebuffer), ∃ w' r',
      Window.present sound (screen, w) = .ok screen.dirty (screen.consume.2, w') ∧
      Recorder.present sound (screen, r) = .ok screen.dirty (screen.consume.2, r') := by
  refine ⟨fun hquiet => ?_, fun hquit => ?_, fun sound screen => ?_⟩
  · have hrecorder := Recorder.pump_queueAll m w.queue hempty hgoesOn
    rw [← hempty] at hrecorder
    exact ⟨Window.pump_of_quiet hquiet, hrecorder⟩
  -- The first event that quits cuts the queue.
  · rcases none_or_first HostEvent.isQuit w.queue with
      hquiet | ⟨before, event, rest, hqueue, hbefore, hevent⟩
    · obtain ⟨event, hmem, hevent⟩ := hquit
      rw [hquiet event hmem] at hevent
      cases hevent
    · exact ⟨before, event, rest, hqueue, hbefore, hevent,
        Window.pump_of_quit hqueue hbefore hevent⟩
  · cases hdirty : screen.dirty with
    | true =>
      exact ⟨_, _, Window.present_of_dirty sound w hdirty,
        Recorder.present_of_dirty sound r hdirty⟩
    | false =>
      rw [Framebuffer.consume_of_clean hdirty]
      exact ⟨_, _, Window.present_of_clean sound w hdirty,
        Recorder.present_of_clean sound r hdirty⟩

/-- A machine whose latch listens. -/
def listening : Machine :=
  let m := Machine.fresh (.ofBytes []) {}
  { m with keypad := m.keypad.arm }

/-- A window with key events; one of its keys is not in the layout. -/
def busyWindow : Window :=
  (Window.ofScale 10).post [.keyDown "v", .keyDown "p", .keyUp "v", .keyDown "1"]

/-- The latch keeps the first of the two presses, and the key that went up is not held. -/
theorem pumps_agree_listening :
    ({} : Recorder).events = [] ∧ ({} : Recorder).isDone = false ∧
      ∃ m', Window.pump (listening, busyWindow) = .ok true (m', Window.ofScale 10) ∧
        Recorder.pump (listening, ((({} : Recorder).press 15).release 15).press 1) =
          .ok true (m', { pumps := 1 }) ∧
        m'.keypad.pending = some 15 ∧ m'.keypad.heldKeys = [1] := by
  have hempty : ({} : Recorder).events = [] := rfl
  have hgoesOn : ({} : Recorder).isDone = false := rfl
  have hquiet : ∀ event ∈ busyWindow.queue, event.isQuit = false := by decide
  obtain ⟨hwindow, hrecorder⟩ :=
    (pumps_and_presents_agree listening busyWindow hempty hgoesOn).1 hquiet
  have hkeys : (Window.deliver busyWindow.queue listening.keypad).2 =
      (listening.withEvents busyWindow.queue).keypad :=
    congrArg (fun
      | .ok _ (m, _) | .error _ (m, _) => m.keypad) hwindow
  refine ⟨hempty, hgoesOn, _, hwindow, hrecorder, ?_, ?_⟩
  · rw [← hkeys]
    decide
  · rw [← hkeys]
    decide

end ChipEight
