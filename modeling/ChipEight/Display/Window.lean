import ChipEight.Display.Basic
import ChipEight.Display.Picture
import ChipEight.SignedIndex

/-!
# Windows

A display that shows the screen magnified, with a border around it that lights up while there is
sound. The border is painted anew every time, the cells only if the screen changed. Events of the
host wait in a queue; a pump takes all of them, and from the first one that asks to quit on they are
lost. Sixteen keys of the host stand for the keys of the machine, and all others for nothing.

The host counts the sides of a window in thirty-two bits and limits them, so there is not a window
for every size of cells.
-/

namespace ChipEight

/-- An event of the host; keys go by their names. -/
inductive HostEvent where
  | keyDown (name : String)
  | keyUp (name : String)
  | quit
  deriving Repr, DecidableEq

/-- The host's keys and the keys of the machine for which they stand. -/
def keyLayout : List (String × Key) :=
  [("1", keyOf 0x1), ("2", keyOf 0x2), ("3", keyOf 0x3), ("4", keyOf 0xC),
    ("q", keyOf 0x4), ("w", keyOf 0x5), ("e", keyOf 0x6), ("r", keyOf 0xD),
    ("a", keyOf 0x7), ("s", keyOf 0x8), ("d", keyOf 0x9), ("f", keyOf 0xE),
    ("z", keyOf 0xA), ("x", keyOf 0x0), ("c", keyOf 0xB), ("v", keyOf 0xF)]

/-- The name of the host's key that asks to quit when it goes down. -/
def quitKey : String := "escape"

/-- Whether an event asks to quit. -/
def HostEvent.isQuit : HostEvent → Bool
  | .quit => true
  | .keyDown name => name == quitKey
  | .keyUp _ => false

/-- What an event does to a keypad. -/
def HostEvent.apply (event : HostEvent) (k : Keypad) : Keypad :=
  match event with
  | .keyDown name => ((keyLayout.lookup name).map k.press).getD k
  | .keyUp name => ((keyLayout.lookup name).map k.release).getD k
  | .quit => k

/-- Why there is no window of some size. -/
inductive WindowError where
  /-- A side is no number to the host. -/
  | unmeasurable
  /-- A side is negative. -/
  | negative
  /-- A side is too long. -/
  | tooLarge
  deriving Repr, DecidableEq

/-- The text of the error. -/
def WindowError.message : WindowError → String
  | .unmeasurable => "size must be two numbers"
  | .negative => "Cannot set negative sized display mode"
  | .tooLarge => "Window is too large."

/-- A window. -/
structure Window where
  /-- The side of the square that shows a cell. -/
  scale : Nat
  /-- The number of screens that were drawn. -/
  drawn : Nat
  /-- The colour of the border. -/
  border : Color
  /-- The cells that were drawn last. -/
  shown : Array Bool
  /-- The events that wait, the oldest first. -/
  queue : List HostEvent
  deriving Repr, DecidableEq

namespace Window

/-- The thickness of the border. -/
def borderWidth : Nat := 4

/-- The cells of a dark screen. -/
def darkCells : Array Bool := Array.replicate (screenWidth * screenHeight) false

/-- A window that was not opened yet. -/
def ofScale (scale : Nat) : Window := ⟨scale, 0, Color.black, darkCells, []⟩

/-- The side of a window that shows a number of cells, as the host counts it. -/
def side (cells : Nat) (scale : Int) : Int := Int.bmod (cells * scale + 2 * borderWidth) 0x100000000

/-- The longest side of a window. -/
def maxSide : Int := 16384

/-- A window in which a cell is a square with sides of length `scale`. The size of the window has
the last word on how large a cell is. -/
def create (scale : Int) : Except WindowError Window :=
  let width := side screenWidth scale
  let height := side screenHeight scale
  if !fitsIndex (screenWidth * scale + 2 * borderWidth) then .error .unmeasurable
  else if width < 0 ∨ height < 0 then .error .negative
  else if maxSide < width ∨ maxSide < height then .error .tooLarge
  else .ok (ofScale ((width - 2 * borderWidth) / screenWidth).toNat)

/-- Add events at the end of the queue. -/
def post (w : Window) (events : List HostEvent) : Window := { w with queue := w.queue ++ events }

/-- A window that is opened is all dark. -/
def opened (w : Window) : Window := { w with border := Color.black, shown := darkCells }

/-- Deliver events to a keypad up to the first that asks to quit, and tell whether none does. -/
def deliver : List HostEvent → Keypad → Bool × Keypad
  | [], k => (true, k)
  | event :: rest, k => if event.isQuit then (false, k) else deliver rest (event.apply k)

/-- Take all events off the queue and deliver them. -/
def pump : EStateM Fault (Machine × Window) Bool := fun (m, w) =>
  let (goOn, keypad) := deliver w.queue m.keypad
  .ok goOn ({ m with keypad }, { w with queue := [] })

/-- Paint the border, and the screen if it changed. -/
def present (sound : Bool) : EStateM Fault (Framebuffer × Window) Bool := fun (screen, w) =>
  let w := { w with border := if sound then Color.amber else Color.black }
  if screen.dirty then
    let (shown, screen) := screen.consume
    .ok true (screen, { w with shown, drawn := w.drawn + 1 })
  else .ok false (screen, w)

theorem present_of_dirty (sound : Bool) {screen : Framebuffer} (w : Window)
    (h : screen.dirty = true) :
    present sound (screen, w) =
      .ok true (screen.consume.2, { w with
        border := if sound then Color.amber else Color.black
        shown := screen.cells
        drawn := w.drawn + 1 }) := by
  simp only [present, h]
  rfl

theorem present_of_clean (sound : Bool) {screen : Framebuffer} (w : Window)
    (h : screen.dirty = false) :
    present sound (screen, w) =
      .ok false (screen, { w with border := if sound then Color.amber else Color.black }) := by
  simp only [present, h]
  rfl

/-- What the window shows. -/
def picture (w : Window) : Picture Color :=
  ((Picture.ofCells w.shown Color.white Color.black).magnify w.scale).framed borderWidth w.border

instance : Display Window where
  opened := opened
  closed w := w
  pump := pump
  present := present
  pumpsLeft _ := none

end Window

end ChipEight
