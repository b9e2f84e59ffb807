import ChipEight.Display.Recorder

/-!
# Delivering key events

What a pump of a recorder does to the machine and to the queue, for whatever is queued. Key events
with codes of keys are delivered one after the other (`deliver_append`), and the first without one
stops the pump. So there are three kinds of pumps: one that stops the run (`pump_of_isDone`), one
that delivers all that waits (`pump_of_keys`), and one that is stopped itself (`pump_of_bad`).
-/

namespace ChipEight

/-- No item of a list is of some kind, or there is a first that is. -/
theorem none_or_first {α : Type} (p : α → Bool) (items : List α) :
    (∀ item ∈ items, p item = false) ∨
      ∃ before item rest, items = before ++ item :: rest ∧
        (∀ item ∈ before, p item = false) ∧ p item = true := by
  cases hfirst : items.find? p with
  | none => exact .inl (by simpa using List.find?_eq_none.1 hfirst)
  | some item =>
    obtain ⟨hitem, before, rest, hitems, hbefore⟩ := List.find?_eq_some_iff_append.1 hfirst
    exact .inr ⟨before, item, rest, hitems, by simpa using hbefore, hitem⟩

/-! ## Key events -/

/-- Whether a key event has the code of a key. -/
def KeyEvent.isKey (event : KeyEvent) : Bool := 0 ≤ event.code && event.code < 16

/-- The keypad after a key event. One with a bad code leaves it alone. -/
def Keypad.afterEvent (k : Keypad) (event : KeyEvent) : Keypad :=
  match Key.ofCode event.code with
  | .ok key => if event.down then k.press key else k.release key
  | .error _ => k

/-- The keypad after key events, one after the other. -/
def Keypad.afterEvents (k : Keypad) (events : List KeyEvent) : Keypad :=
  events.foldl Keypad.afterEvent k

/-- The machine to which key events were delivered. -/
def Machine.withKeys (m : Machine) (events : List KeyEvent) : Machine :=
  { m with keypad := m.keypad.afterEvents events }

theorem Machine.withKeys_append (m : Machine) (first second : List KeyEvent) :
    (m.withKeys first).withKeys second = m.withKeys (first ++ second) := by
  simp only [withKeys, Keypad.afterEvents, List.foldl_append]

theorem KeyEvent.ofCode_of_isKey {event : KeyEvent} (h : event.isKey = true) :
    ∃ key, Key.ofCode event.code = .ok key := by
  have hrange : 0 ≤ event.code ∧ event.code < 16 := by simpa [isKey] using h
  exact ⟨⟨event.code.toNat, by omega⟩, dif_pos hrange⟩

theorem KeyEvent.apply_of_isKey {event : KeyEvent} (h : event.isKey = true) (m : Machine) :
    event.apply m = .ok (m.withKeys [event]) := by
  obtain ⟨key, hkey⟩ := ofCode_of_isKey h
  simp only [apply, Machine.keyDown, Machine.keyUp, Machine.withKeys, Keypad.afterEvents,
    Keypad.afterEvent, List.foldl_cons, List.foldl_nil, hkey]
  cases event.down <;> rfl

theorem KeyEvent.apply_of_not_isKey {event : KeyEvent} (h : event.isKey = false) (m : Machine) :
    event.apply m = .error (.keyOutOfRange event.code) := by
  have hrange : ¬ (0 ≤ event.code ∧ event.code < 16) := by
    simp only [isKey, Bool.and_eq_false_iff, decide_eq_false_iff_not] at h
    omega
  have hkey : Key.ofCode event.code = .error (.keyOutOfRange event.code) := dif_neg hrange
  simp only [apply, Machine.keyDown, Machine.keyUp, hkey]
  cases event.down <;> rfl

/-- All events have codes of keys, or there is a first with a bad one. -/
theorem KeyEvent.keys_or_bad (events : List KeyEvent) :
    (∀ event ∈ events, event.isKey = true) ∨
      ∃ before bad later, events = before ++ bad :: later ∧
        (∀ event ∈ before, event.isKey = true) ∧ bad.isKey = false := by
  simpa using none_or_first (fun event : KeyEvent => !event.isKey) events

/-! ## Pumps -/

namespace Recorder

variable {r : Recorder} {before later : List KeyEvent} {bad : KeyEvent}

theorem deliver_cons (event : KeyEvent) (rest : List KeyEvent) (m : Machine) (r : Recorder) :
    deliver (event :: rest) (m, r) =
      match event.apply m with
      | .ok m => deliver rest (m, { r with events := rest })
      | .error fault => .error fault (m, { r with events := rest }) := rfl

/-- A delivery gets as far as the first event with a bad code. -/
theorem deliver_append (m : Machine) (r : Recorder) (rest : List KeyEvent)
    (h : ∀ event ∈ before, event.isKey = true) :
    deliver (before ++ rest) (m, { r with events := before ++ rest }) =
      deliver rest (m.withKeys before, { r with events := rest }) := by
  induction before generalizing m with
  | nil => rfl
  | cons event before ih =>
    rw [List.forall_mem_cons] at h
    have hrest := ih (m.withKeys [event]) h.2
    rw [Machine.withKeys_append] at hrest
    rw [List.cons_append, deliver_cons, KeyEvent.apply_of_isKey h.1]
    exact hrest

theorem pump_of_isDone (m : Machine) (h : r.isDone = true) : pump (m, r) = .ok false (m, r) :=
  if_pos h

/-- If all events have codes of keys, all of them are delivered. -/
theorem pump_of_keys (m : Machine) (hgoesOn : r.isDone = false)
    (hkeys : ∀ event ∈ r.events, event.isKey = true) :
    pump (m, r) =
      .ok true (m.withKeys r.events, { r with pumps := r.pumps + 1, events := [] }) := by
  have hdeliver := deliver_append m { r with pumps := r.pumps + 1 } [] hkeys
  rw [List.append_nil] at hdeliver
  simp only [pump, hgoesOn, hdeliver]
  rfl

/-- An event with a bad code stops a pump and is gone; those behind it go on waiting. -/
theorem pump_of_bad (m : Machine) (hgoesOn : r.isDone = false)
    (hqueue : r.events = before ++ bad :: later) (hkeys : ∀ event ∈ before, event.isKey = true)
    (hbad : bad.isKey = false) :
    pump (m, r) = .error (.keyOutOfRange bad.code)
      (m.withKeys before, { r with pumps := r.pumps + 1, events := later }) := by
  have hdeliver := deliver_append m { r with pumps := r.pumps + 1 } (bad :: later) hkeys
  rw [deliver_cons, KeyEvent.apply_of_not_isKey hbad, ← hqueue] at hdeliver
  simp only [pump, hgoesOn, hdeliver]
  rfl

end Recorder

end ChipEight
