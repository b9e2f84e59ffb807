import ChipEight.Display.Basic

/-!
# Recorders

A display that shows nothing and keeps the frames that it was given. Key events are queued and
delivered in their order, each once: an event leaves the queue before it is looked at, so one with a
bad code is gone when it stops a pump, while those after it stay. A recorder may be told to stop a
run after some number of pumps.
-/

namespace ChipEight

/-- A key that goes down or up. -/
structure KeyEvent where
  /-- Whether the key goes down. -/
  down : Bool
  /-- The code of the key. -/
  code : Int
  deriving Repr, DecidableEq

/-- What a key event does to a machine. -/
def KeyEvent.apply (event : KeyEvent) (m : Machine) : Except Fault Machine :=
  if event.down then m.keyDown event.code else m.keyUp event.code

/-- A display that keeps what it is given. -/
structure Recorder where
  /-- The frames that were drawn, the oldest first. -/
  shots : Array (Array Bool) := #[]
  /-- The number of frames with sound. -/
  soundFrames : Nat := 0
  /-- After how many pumps to stop, if at all. -/
  quitAfter : Option Int := none
  /-- The number of pumps so far. -/
  pumps : Nat := 0
  /-- Whether the display is open. -/
  isOpen : Bool := false
  /-- The events that wait, the oldest first. -/
  events : List KeyEvent := []
  deriving Repr, DecidableEq

namespace Recorder

/-- Queue an event. -/
def queue (r : Recorder) (event : KeyEvent) : Recorder := { r with events := r.events ++ [event] }

/-- Queue a press. -/
def press (r : Recorder) (code : Int) : Recorder := r.queue ⟨true, code⟩

/-- Queue a release. -/
def release (r : Recorder) (code : Int) : Recorder := r.queue ⟨false, code⟩

/-- Whether it is time to stop. -/
def isDone (r : Recorder) : Bool :=
  match r.quitAfter with
  | some count => count ≤ r.pumps
  | none => false

/-- Deliver events one by one; `events` are those that wait. -/
def deliver : List KeyEvent → EStateM Fault (Machine × Recorder) Unit
  | [] => return ()
  | event :: rest => fun (m, r) =>
    let r := { r with events := rest }
    match event.apply m with
    | .ok m => deliver rest (m, r)
    | .error fault => .error fault (m, r)

/-- Deliver the events that wait, unless it is time to stop. -/
def pump : EStateM Fault (Machine × Recorder) Bool := fun (m, r) =>
  if r.isDone then .ok false (m, r)
  else
    match deliver r.events (m, { r with pumps := r.pumps + 1 }) with
    | .ok _ s => .ok true s
    | .error fault s => .error fault s

/-- Keep a screen that changed, and count the frames with sound. -/
def present (sound : Bool) : EStateM Fault (Framebuffer × Recorder) Bool := fun (screen, r) =>
  let r := if sound then { r with soundFrames := r.soundFrames + 1 } else r
  if screen.dirty then
    let (cells, screen) := screen.consume
    .ok true (screen, { r with shots := r.shots.push cells })
  else .ok false (screen, r)

theorem present_of_dirty (sound : Bool) {screen : Framebuffer} (r : Recorder)
    (h : screen.dirty = true) :
    present sound (screen, r) =
      .ok true (screen.consume.2, { r with
        soundFrames := r.soundFrames + sound.toNat, shots := r.shots.push screen.cells }) := by
  cases sound <;> simp only [present, h] <;> rfl

theorem present_of_clean (sound : Bool) {screen : Framebuffer} (r : Recorder)
    (h : screen.dirty = false) :
    present sound (screen, r) =
      .ok false (screen, { r with soundFrames := r.soundFrames + sound.toNat }) := by
  cases sound <;> simp only [present, h] <;> rfl

/-- The latest frame that was drawn. -/
def lastFrame? (r : Recorder) : Option (Array Bool) := r.shots.back?

theorem lastFrame?_push (r : Recorder) (soundFrames : Nat) (cells : Array Bool) :
    lastFrame? { r with soundFrames, shots := r.shots.push cells } = some cells :=
  Array.back?_push

instance : Display Recorder where
  opened r := { r with isOpen := true }
  closed r := { r with isOpen := false }
  pump := pump
  present := present
  pumpsLeft r := r.quitAfter.map fun (count : Int) => (count - r.pumps).toNat

end Recorder

end ChipEight
