import ChipEight.Display.Recorder
import ChipEight.Proofs.Machine.Run

/-!
# What a recorder has shown

A screen is marked when something is drawn or cleared, and a recorder takes the cells of a marked
screen only. So a change without a mark would never be shown, and a mark that goes without the cells
being taken would hide one.

**Theorem (`present_current`).** Let a machine with a fresh screen run, let others draw on the
screen and clear it, and let one recorder show it, in any order. Whenever the recorder shows the
screen, its latest frame is the screen as it is, and it takes a frame exactly if something was drawn
or cleared since it took one before. In between, a screen without the mark is as it was last taken.

The history of the screen is kept beside the machine (`Showing`): an entry for each change, whether
or not the mark noticed it, and one for each time that the cells were taken. The invariant says that
the mark and the recorder agree with the history.
-/

namespace ChipEight

/-! ## Instructions that work on the screen -/

/-- Whether an instruction draws on the screen or clears it. -/
def Instruction.draws : Instruction → Bool
  | .clear | .draw _ _ _ => true
  | _ => false

namespace Machine

theorem dirty_effect (m : Machine) {i : Instruction} (h : i.draws = true) :
    (m.effect i).screen.dirty = true := by
  cases i with
  | clear | draw _ _ _ => rfl
  | _ => cases h

theorem screen_effect (m : Machine) {i : Instruction} (h : i.draws = false) :
    (m.effect i).screen = m.screen := by
  cases i with
  | clear | draw _ _ _ => cases h
  | _ => simp only [effect, written]

theorem screen_cycles {m m' : Machine} {result : Option Instruction} (h : Cycles m result m') :
    m'.screen = (result.map fun i => (m.effect i).screen).getD m.screen := by
  cases h with
  | idle _ _ | key _ _ _ | word _ _ _ => rfl

/-- Whether something that goes on draws on the screen or clears it. -/
def draws (m : Machine) (e : Event) : Bool := (m.ran? e.call).any Instruction.draws

theorem dirty_after {m : Machine} (hsize : m.memory.size = memorySize) {e : Event}
    (h : m.draws e = true) : (m.after e.call).screen.dirty = true := by
  unfold draws at h
  rcases after_event_cases hsize e with hcycles | ⟨hnone, -⟩
  · cases hran : m.ran? e.call with
    | none =>
      rw [hran] at h
      cases h
    | some i =>
      rw [hran] at h hcycles
      rw [screen_cycles hcycles]
      exact m.dirty_effect h
  · rw [hnone] at h
    cases h

theorem screen_after {m : Machine} (hsize : m.memory.size = memorySize) {e : Event}
    (h : m.draws e = false) : (m.after e.call).screen = m.screen := by
  unfold draws at h
  rcases after_event_cases hsize e with hcycles | ⟨-, timers, keypad, hafter⟩
  · rw [screen_cycles hcycles]
    cases hran : m.ran? e.call with
    | none => rfl
    | some i =>
      rw [hran] at h
      exact m.screen_effect h
  · rw [hafter]

end Machine

/-! ## The history of a screen -/

namespace Showing

/-- An entry in the history of a screen. -/
inductive Entry where
  /-- Something was drawn or cleared. -/
  | changed
  /-- The cells were taken to be shown. -/
  | taken (cells : Array Bool)
  deriving Repr, DecidableEq

/-- The cells of a screen on which nothing was drawn. -/
def darkScreen : Array Bool := Framebuffer.darkCells screenWidth screenHeight

/-- Whether something changed since the cells were taken last. The newest entry comes first. -/
def changedSince : List Entry → Bool
  | .changed :: _ => true
  | .taken _ :: _ | [] => false

/-- The cells that were taken last. -/
def lastTaken : List Entry → Array Bool
  | .taken cells :: _ => cells
  | .changed :: past => lastTaken past
  | [] => darkScreen

end Showing

/-- A machine, the recorder that shows its screen, and the history of the screen. -/
structure Showing where
  machine : Machine
  recorder : Recorder
  /-- The entries so far, the newest first. -/
  past : List Showing.Entry
  deriving Repr, DecidableEq

namespace Showing

/-- What is done to a machine and a recorder. -/
inductive Act where
  | event (e : Machine.Event)
  /-- Somebody else draws a sprite. -/
  | draw (x y : Int) (rows : List UInt8)
  /-- Somebody else clears the screen. -/
  | clear
  | present (sound : Bool)
  deriving Repr, DecidableEq

/-- A machine and a recorder before anything happened. -/
def start (machine : Machine) (recorder : Recorder) : Showing := ⟨machine, recorder, []⟩

/-- The screen is another one, and that is an entry. -/
def repaint (s : Showing) (screen : Framebuffer) : Showing :=
  { s with machine := { s.machine with screen }, past := .changed :: s.past }

/-- Something goes on in the machine; it is an entry if it works on the screen. -/
def happen (s : Showing) (e : Machine.Event) : Showing :=
  { s with
    machine := s.machine.after e.call
    past := if s.machine.draws e then .changed :: s.past else s.past }

/-- The recorder shows the screen; it is an entry if it takes the cells. -/
def present (s : Showing) (sound : Bool) : Showing :=
  match Recorder.present sound (s.machine.screen, s.recorder) with
  | .ok shown (screen, recorder) =>
    { machine := { s.machine with screen }
      recorder
      past := if shown then .taken s.machine.screen.consume.1 :: s.past else s.past }
  | .error _ (screen, recorder) => { s with machine := { s.machine with screen }, recorder }

/-- What an act leaves. -/
def after (s : Showing) : Act → Showing
  | .event e => s.happen e
  | .draw x y rows => s.repaint (s.machine.screen.draw x y rows).2
  | .clear => s.repaint s.machine.screen.clear
  | .present sound => s.present sound

/-- What acts leave, one after the other. -/
def afterAll (s : Showing) (acts : List Act) : Showing := acts.foldl after s

/-- The mark of the screen and the recorder agree with the history. -/
structure Current (s : Showing) : Prop where
  memory_size : s.machine.memory.size = memorySize
  dirty_eq : s.machine.screen.dirty = changedSince s.past
  cells_eq : s.machine.screen.dirty = false → s.machine.screen.cells = lastTaken s.past
  lastFrame_eq : s.recorder.lastFrame?.getD darkScreen = lastTaken s.past

variable {s : Showing}

theorem current_start {m : Machine} {r : Recorder} (hsize : m.memory.size = memorySize)
    (hscreen : m.screen = Framebuffer.blank screenWidth screenHeight) (hshots : r.shots = #[]) :
    (start m r).Current where
  memory_size := hsize
  dirty_eq := congrArg Framebuffer.dirty hscreen
  cells_eq _ := congrArg Framebuffer.cells hscreen
  lastFrame_eq := by
    show r.shots.back?.getD darkScreen = darkScreen
    rw [hshots]
    rfl

/-- A change of the screen that is marked is an entry of the history. -/
theorem Current.changed {m : Machine} (h : s.Current) (hsize : m.memory.size = memorySize)
    (hdirty : m.screen.dirty = true) :
    Current { s with machine := m, past := .changed :: s.past } where
  memory_size := hsize
  dirty_eq := hdirty
  cells_eq hclean := by
    rw [hdirty] at hclean
    cases hclean
  lastFrame_eq := h.lastFrame_eq

theorem Current.repaint {screen : Framebuffer} (h : s.Current) (hdirty : screen.dirty = true) :
    (s.repaint screen).Current :=
  h.changed h.memory_size hdirty

/-- What leaves the screen alone needs no entry. -/
theorem Current.unchanged {m : Machine} (h : s.Current) (hsize : m.memory.size = memorySize)
    (hscreen : m.screen = s.machine.screen) : Current { s with machine := m } where
  memory_size := hsize
  dirty_eq := by rw [hscreen, h.dirty_eq]
  cells_eq := by rw [hscreen]; exact h.cells_eq
  lastFrame_eq := h.lastFrame_eq

theorem Current.happen (h : s.Current) (e : Machine.Event) : (s.happen e).Current := by
  have hsize := Machine.size_after h.memory_size e.call
  unfold Showing.happen
  -- An event that draws marks the screen, and every other one leaves it alone.
  cases hdraws : s.machine.draws e with
  | true => exact h.changed hsize (Machine.dirty_after h.memory_size hdraws)
  | false => exact h.unchanged hsize (Machine.screen_after h.memory_size hdraws)

theorem present_of_dirty (h : s.machine.screen.dirty = true) (sound : Bool) :
    s.present sound =
      { machine := { s.machine with screen := s.machine.screen.consume.2 }
        recorder := { s.recorder with
          soundFrames := s.recorder.soundFrames + sound.toNat
          shots := s.recorder.shots.push s.machine.screen.cells }
        past := .taken s.machine.screen.cells :: s.past } := by
  unfold Showing.present
  rw [Recorder.present_of_dirty sound s.recorder h]
  rfl

theorem present_of_clean (h : s.machine.screen.dirty = false) (sound : Bool) :
    s.present sound =
      { s with recorder := { s.recorder with
          soundFrames := s.recorder.soundFrames + sound.toNat } } := by
  unfold Showing.present
  rw [Recorder.present_of_clean sound s.recorder h]
  rfl

/-- A recorder that takes the cells leaves a screen without the mark and keeps what it took. -/
theorem Current.present (h : s.Current) (sound : Bool) : (s.present sound).Current := by
  cases hdirty : s.machine.screen.dirty with
  | true =>
    rw [present_of_dirty hdirty]
    refine ⟨h.memory_size, rfl, fun _ => rfl, ?_⟩
    rw [Recorder.lastFrame?_push]
    rfl
  | false =>
    rw [present_of_clean hdirty]
    exact ⟨h.memory_size, h.dirty_eq, h.cells_eq, h.lastFrame_eq⟩

/-- Every act keeps the invariant. -/
theorem Current.after (h : s.Current) (act : Act) : (s.after act).Current := by
  cases act with
  | event e => exact h.happen e
  | draw x y rows => exact h.repaint rfl
  | clear => exact h.repaint rfl
  | present sound => exact h.present sound

theorem Current.afterAll (h : s.Current) (acts : List Act) : (s.afterAll acts).Current := by
  induction acts generalizing s with
  | nil => exact h
  | cons act rest ih => exact ih (h.after act)

/-- **A recorder misses no change and shows nothing twice.** -/
theorem present_current {m : Machine} {r : Recorder} (hsize : m.memory.size = memorySize)
    (hscreen : m.screen = Framebuffer.blank screenWidth screenHeight) (hshots : r.shots = #[])
    (acts : List Act) :
    let s := (start m r).afterAll acts
    (s.machine.screen.dirty = false → s.machine.screen.cells = lastTaken s.past) ∧
      ∀ sound, ∃ shown screen r',
        Recorder.present sound (s.machine.screen, s.recorder) = .ok shown (screen, r') ∧
          screen.cells = s.machine.screen.cells ∧
          r'.lastFrame?.getD darkScreen = screen.cells ∧
          (shown = true ↔ changedSince s.past = true) ∧
          r'.shots = if shown then s.recorder.shots.push screen.cells else s.recorder.shots := by
  intro s
  have h : s.Current := (current_start hsize hscreen hshots).afterAll acts
  refine ⟨h.cells_eq, fun sound => ?_⟩
  rw [← h.dirty_eq]
  cases hdirty : s.machine.screen.dirty with
  | true =>
    refine ⟨true, _, _, Recorder.present_of_dirty sound s.recorder hdirty, rfl, ?_, Iff.rfl, rfl⟩
    rw [Recorder.lastFrame?_push]
    rfl
  | false =>
    -- A clean screen has the cells that were taken last.
    have hlast : s.recorder.lastFrame?.getD darkScreen = s.machine.screen.cells := by
      rw [h.lastFrame_eq, h.cells_eq hdirty]
    exact ⟨false, _, _, Recorder.present_of_clean sound s.recorder hdirty, rfl, hlast, Iff.rfl, rfl⟩

/-- A sprite was drawn on a fresh screen, and the recorder has not shown it yet. -/
def drawnOnce : Showing :=
  (start (Machine.fresh (.ofBytes []) {}) {}).afterAll [.draw 3 2 [0x80]]

/-- The recorder shows its one lit cell. -/
theorem present_current_drawnOnce :
    (Machine.fresh (.ofBytes []) {}).memory.size = memorySize ∧
      (Machine.fresh (.ofBytes []) {}).screen = Framebuffer.blank screenWidth screenHeight ∧
      ({} : Recorder).shots = #[] ∧
      ∃ screen r',
        Recorder.present false (drawnOnce.machine.screen, drawnOnce.recorder) =
            .ok true (screen, r') ∧
          r'.lastFrame?.getD darkScreen = screen.cells ∧ screen.cells.getD 131 false = true := by
  have hsize : (Machine.fresh (.ofBytes []) {}).memory.size = memorySize := rfl
  have hscreen : (Machine.fresh (.ofBytes []) {}).screen =
      Framebuffer.blank screenWidth screenHeight := rfl
  have hshots : ({} : Recorder).shots = #[] := rfl
  obtain ⟨shown, screen, r', hpresent, hcells, hlast, hchanged, -⟩ :=
    (present_current hsize hscreen hshots [.draw 3 2 [0x80]]).2 false
  obtain rfl : shown = true := hchanged.2 rfl
  have hlit : drawnOnce.machine.screen.cells.getD 131 false = true := by decide +kernel
  have hshown : screen.cells = drawnOnce.machine.screen.cells := hcells
  refine ⟨hsize, hscreen, hshots, screen, r', hpresent, hlast, ?_⟩
  rw [hshown]
  exact hlit

end Showing

end ChipEight
