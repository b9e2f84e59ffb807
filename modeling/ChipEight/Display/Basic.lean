import ChipEight.Emulator.Basic

/-!
# Displays and sessions

A display takes key events to a machine and shows its screen. A session is an emulator together with
a display. It runs in frames: the display delivers its events, the emulator runs a frame, and the
screen is shown. The display is open during a run and closed afterwards, also if a fault ends the
run.
-/

namespace ChipEight

/-- What a session needs of a display. -/
class Display (δ : Type) where
  /-- Open the display. -/
  opened : δ → δ
  /-- Close the display. -/
  closed : δ → δ
  /-- Deliver the events that wait to the machine, and tell whether to go on. -/
  pump : EStateM Fault (Machine × δ) Bool
  /-- Show a screen, with sound or without, and tell whether it had to be drawn. -/
  present : Bool → EStateM Fault (Framebuffer × δ) Bool
  /-- How many more times the display will tell to go on, if it knows. -/
  pumpsLeft : δ → Option Nat

/-- An emulator and a display. -/
structure Session (δ : Type) where
  emulator : Emulator
  display : δ

namespace Session

variable {δ : Type}

/-- What changes a session and may be stopped by a fault. -/
abbrev Action (δ : Type) := EStateM Fault (Session δ)

/-- An action on the emulator. -/
def onEmulator {α : Type} (action : Emulator.Action α) : Action δ α := fun s =>
  match action s.emulator with
  | .ok a emulator => .ok a { s with emulator }
  | .error fault emulator => .error fault { s with emulator }

/-- Let the display deliver its events. -/
def pump [Display δ] : Action δ Bool := fun s =>
  match Display.pump (s.emulator.machine, s.display) with
  | .ok a (machine, display) => .ok a ⟨{ s.emulator with machine }, display⟩
  | .error fault (machine, display) => .error fault ⟨{ s.emulator with machine }, display⟩

/-- Let the display show the screen. -/
def present [Display δ] (sound : Bool) : Action δ Bool := fun s =>
  let e := s.emulator
  match Display.present sound (e.machine.screen, s.display) with
  | .ok a (screen, display) => .ok a ⟨{ e with machine := { e.machine with screen } }, display⟩
  | .error fault (screen, display) =>
    .error fault ⟨{ e with machine := { e.machine with screen } }, display⟩

/-- One frame, unless the display tells to stop; it tells whether there was one. -/
def frame [Display δ] : Action δ Bool := do
  if ← pump then
    let _ ← onEmulator Emulator.runFrame
    let _ ← present (← get).emulator.machine.timers.soundOn
    return true
  else
    return false

/-- At most a number of frames. It gives how many there were, added to `done`. -/
def frames [Display δ] : Nat → Nat → Action δ Nat
  | 0, done => return done
  | count + 1, done => do
    if ← frame then frames count (done + 1) else return done

/-- A number of frames that no run comes to. -/
def endless : Nat := 0x10000000000000000

/-- How many frames a run may have: the limit if there is one, and else as many as the display will
ask for. -/
def frameLimit [Display δ] (limit : Option Int) (display : δ) : Nat :=
  match limit with
  | some count => count.toNat
  | none => (Display.pumpsLeft display).getD endless

/-- Run with the display open. It gives the number of frames. -/
def run [Display δ] (limit : Option Int) : Action δ Nat := fun s =>
  let s := { s with display := Display.opened s.display }
  match frames (frameLimit limit s.display) 0 s with
  | .ok count s => .ok count { s with display := Display.closed s.display }
  | .error fault s => .error fault { s with display := Display.closed s.display }

end Session

end ChipEight
