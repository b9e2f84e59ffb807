import ChipEight.Display.Window
import ChipEight.Proofs.Display.Screen

/-!
# What a window shows

A window is painted in strokes. It is filled when it is opened. Whenever the screen is shown, a
frame is drawn just inside the sides of the window, and only if the screen is marked its cells are
blown up and pasted into the middle. What was painted before stays where no stroke comes.

**Theorem (`canvas_after_present`).** Let a machine with a fresh screen run, let others draw on the
screen and clear it, and let one window that was just opened show it, in any order. Whenever the
window has shown the screen, each cell is a square of places in the colour of the cell, all other
places have the colour of the border, and the screens that were drawn are counted.

The strokes are put on a canvas beside the machine and the window (`Viewing`). The invariant
(`Viewing.Faithful`) says that the canvas is the picture of the window, and that the window has the
cells of every screen without the mark. Where the places of a picture stand is arithmetic and is
settled before.
-/

namespace ChipEight

open Showing (Act)

/-! ## Strokes -/

namespace Picture

variable {κ : Type}

/-- A picture in one colour. -/
def filled (width height : Nat) (color : κ) : Picture κ := ⟨width, height, fun _ _ => color⟩

/-- The picture with a frame of some thickness drawn just inside its sides. -/
def edged (p : Picture κ) (thickness : Nat) (color : κ) : Picture κ where
  width := p.width
  height := p.height
  colorAt x y :=
    if thickness ≤ x ∧ x + thickness < p.width ∧ thickness ≤ y ∧ y + thickness < p.height then
      p.colorAt x y
    else color

/-- The picture with another one pasted in, its top left place at `(left, top)`. -/
def pasted (p : Picture κ) (left top : Nat) (other : Picture κ) : Picture κ where
  width := p.width
  height := p.height
  colorAt x y :=
    if left ≤ x ∧ x < left + other.width ∧ top ≤ y ∧ y < top + other.height then
      other.colorAt (x - left) (y - top)
    else p.colorAt x y

variable {p q : Picture κ}

/-- A frame goes where the border was. -/
theorem edged_framed (thickness : Nat) (old new : κ) :
    (p.framed thickness old).edged thickness new = p.framed thickness new := by
  ext x y
  · rfl
  · rfl
  · by_cases hinner : thickness ≤ x ∧ x < thickness + p.width ∧ thickness ≤ y ∧
        y < thickness + p.height
    · have hkept : thickness ≤ x ∧ x + thickness < p.width + 2 * thickness ∧ thickness ≤ y ∧
          y + thickness < p.height + 2 * thickness := by omega
      calc ((p.framed thickness old).edged thickness new).colorAt x y
          = (p.framed thickness old).colorAt x y := if_pos hkept
        _ = p.colorAt (x - thickness) (y - thickness) := if_pos hinner
        _ = (p.framed thickness new).colorAt x y := (if_pos hinner).symm
    · have hpainted : ¬(thickness ≤ x ∧ x + thickness < p.width + 2 * thickness ∧ thickness ≤ y ∧
          y + thickness < p.height + 2 * thickness) := by omega
      calc ((p.framed thickness old).edged thickness new).colorAt x y
          = new := if_neg hpainted
        _ = (p.framed thickness new).colorAt x y := (if_neg hinner).symm

/-- What is pasted into the middle covers what was framed there. -/
theorem pasted_framed (thickness : Nat) (border : κ) (hwidth : q.width = p.width)
    (hheight : q.height = p.height) :
    (p.framed thickness border).pasted thickness thickness q = q.framed thickness border := by
  ext x y
  · exact congrArg (· + 2 * thickness) hwidth.symm
  · exact congrArg (· + 2 * thickness) hheight.symm
  · by_cases hinner : thickness ≤ x ∧ x < thickness + q.width ∧ thickness ≤ y ∧
        y < thickness + q.height
    · exact (if_pos hinner).trans (if_pos hinner).symm
    · have houter : ¬(thickness ≤ x ∧ x < thickness + p.width ∧ thickness ≤ y ∧
          y < thickness + p.height) := by rwa [← hwidth, ← hheight]
      calc ((p.framed thickness border).pasted thickness thickness q).colorAt x y
          = (p.framed thickness border).colorAt x y := if_neg hinner
        _ = border := if_neg houter
        _ = (q.framed thickness border).colorAt x y := (if_neg hinner).symm

/-- A picture in one colour with a border in that colour is all in that colour. -/
theorem framed_filled (width height thickness : Nat) (color : κ) :
    (filled width height color).framed thickness color =
      filled (width + 2 * thickness) (height + 2 * thickness) color := by
  ext x y
  · rfl
  · rfl
  · exact ite_self color

/-- To blow up a picture in one colour gives a larger one. -/
theorem magnify_filled (width height scale : Nat) (color : κ) :
    (filled width height color).magnify scale = filled (width * scale) (height * scale) color :=
  rfl

/-- A screen without a lit cell is in one colour. -/
theorem ofCells_dark {cells : Array Bool} (on off : κ)
    (h : ∀ place, ¬cells.getD place false = true) :
    ofCells cells on off = filled screenWidth screenHeight off := by
  ext x y
  · rfl
  · rfl
  · exact if_neg (h _)

/-! ## Places -/

/-- The squares of the places on a side stand one after the other. -/
theorem square_lt {x size scale i : Nat} (hx : x < size) (hi : i < scale) :
    x * scale + i < size * scale :=
  calc x * scale + i < x * scale + scale := by omega
    _ = (x + 1) * scale := (Nat.succ_mul x scale).symm
    _ ≤ size * scale := Nat.mul_le_mul_right scale hx

theorem square_div {x scale i : Nat} (hi : i < scale) : (x * scale + i) / scale = x := by
  rw [Nat.mul_comm, Nat.mul_add_div (by omega), Nat.div_eq_of_lt hi, Nat.add_zero]

/-- A place of a picture that was blown up is in the square of a place of the picture. -/
theorem exists_square {place size scale : Nat} (h : place < size * scale) :
    ∃ x < size, ∃ i < scale, place = x * scale + i := by
  have hscale : 0 < scale := Nat.pos_of_ne_zero fun hzero => by simp [hzero] at h
  refine ⟨place / scale, (Nat.div_lt_iff_lt_mul hscale).2 h, place % scale,
    Nat.mod_lt _ hscale, ?_⟩
  rw [Nat.mul_comm, Nat.div_add_mod]

variable {scale thickness x y i j : Nat} {border : κ}

/-- Every place of a square has the colour of the place that was blown up. -/
theorem colorAt_framed_magnify (hx : x < p.width) (hy : y < p.height) (hi : i < scale)
    (hj : j < scale) :
    ((p.magnify scale).framed thickness border).colorAt (thickness + x * scale + i)
        (thickness + y * scale + j) = p.colorAt x y := by
  have hcolumn : x * scale + i < p.width * scale := square_lt hx hi
  have hrow : y * scale + j < p.height * scale := square_lt hy hj
  have hinner : thickness ≤ thickness + x * scale + i ∧
      thickness + x * scale + i < thickness + p.width * scale ∧
      thickness ≤ thickness + y * scale + j ∧
      thickness + y * scale + j < thickness + p.height * scale := by omega
  calc ((p.magnify scale).framed thickness border).colorAt (thickness + x * scale + i)
        (thickness + y * scale + j)
      = p.colorAt ((thickness + x * scale + i - thickness) / scale)
          ((thickness + y * scale + j - thickness) / scale) := if_pos hinner
    _ = p.colorAt ((x * scale + i) / scale) ((y * scale + j) / scale) := by
        rw [Nat.add_assoc, Nat.add_sub_cancel_left, Nat.add_assoc, Nat.add_sub_cancel_left]
    _ = p.colorAt x y := by rw [square_div hi, square_div hj]

/-- A place in no square is on the border. -/
theorem colorAt_framed_border
    (h : ¬∃ x' < p.width, ∃ y' < p.height, ∃ i < scale, ∃ j < scale,
      x = thickness + x' * scale + i ∧ y = thickness + y' * scale + j) :
    ((p.magnify scale).framed thickness border).colorAt x y = border := by
  refine if_neg fun ⟨hleft, hright, htop, hbottom⟩ => h ?_
  have hcolumn : x - thickness < p.width * scale := by
    simp only [magnify] at hright
    omega
  have hrow : y - thickness < p.height * scale := by
    simp only [magnify] at hbottom
    omega
  obtain ⟨x', hx', i, hi, hx⟩ := exists_square hcolumn
  obtain ⟨y', hy', j, hj, hy⟩ := exists_square hrow
  exact ⟨x', hx', y', hy', i, hi, j, hj, by omega, by omega⟩

end Picture

/-! ## The screen of a machine -/

theorem Window.getD_darkCells (place : Nat) : ¬darkCells.getD place false = true := by
  unfold darkCells
  rw [Array.getD_eq_getD_getElem?, Array.getElem?_replicate]
  split <;> exact Bool.false_ne_true

/-- A grid has the sides and the cells of a machine's screen. -/
structure Framebuffer.IsScreen (f : Framebuffer) : Prop where
  width_eq : f.width = screenWidth
  height_eq : f.height = screenHeight
  cells_size : f.cells.size = screenWidth * screenHeight

namespace Framebuffer.IsScreen

variable {f : Framebuffer}

theorem blank : (Framebuffer.blank screenWidth screenHeight).IsScreen where
  width_eq := rfl
  height_eq := rfl
  cells_size := by simp [Framebuffer.blank, darkCells, screenWidth, screenHeight]

theorem draw (h : f.IsScreen) (x y : Int) (rows : List UInt8) : (f.draw x y rows).2.IsScreen :=
  { h with cells_size := (size_flipAll _ _).trans h.cells_size }

/-- The cells are made anew from the sides. -/
theorem clear (h : f.IsScreen) : f.clear.IsScreen where
  width_eq := h.width_eq
  height_eq := h.height_eq
  cells_size := by
    simp [Framebuffer.clear, darkCells, h.width_eq, h.height_eq, screenWidth, screenHeight]

/-- A screen takes every sprite, so no drawing of a machine is refused. -/
theorem drawSprite_eq (h : f.IsScreen) (x y : Int) (rows : List UInt8) :
    f.drawSprite x y rows = .ok (f.draw x y rows) := by
  have hwidth : f.width ≠ 0 := by rw [h.width_eq]; decide
  have hheight : f.height ≠ 0 := by rw [h.height_eq]; decide
  exact f.drawSprite_of_ne hwidth hheight x y rows

/-- Every cell of a screen has its place among the cells, row by row. -/
theorem pixel_eq (h : f.IsScreen) {x y : Nat} (hx : x < screenWidth) (hy : y < screenHeight) :
    f.pixel x y = .ok (f.cells.getD (y * screenWidth + x) false) := by
  have hplace : (y : Int) * f.width + x = ((y * screenWidth + x : Nat) : Int) := by
    rw [h.width_eq]
    omega
  have hinside : y * screenWidth + x < f.cells.size := by
    rw [h.cells_size]
    unfold screenWidth screenHeight at *
    omega
  have hsize : (f.cells.size : Int) < indexLimit := by
    rw [h.cells_size]
    decide
  rw [pixel, hplace, signedIndex_of_lt hinside hsize]
  rfl

end Framebuffer.IsScreen

namespace Machine

variable {m : Machine}

theorem isScreen_effect (h : m.screen.IsScreen) (i : Instruction) :
    (m.effect i).screen.IsScreen := by
  cases hdraws : i.draws with
  | false =>
    rw [m.screen_effect hdraws]
    exact h
  | true =>
    cases i with
    | clear => exact h.clear
    | draw x y n => exact h.draw _ _ _
    | _ => cases hdraws

theorem isScreen_after (hsize : m.memory.size = memorySize) (h : m.screen.IsScreen) (e : Event) :
    (m.after e.call).screen.IsScreen := by
  rcases after_event_cases hsize e with hcycles | ⟨-, timers, keypad, hafter⟩
  · rw [screen_cycles hcycles]
    cases m.ran? e.call with
    | none => exact h
    | some i => exact isScreen_effect h i
  · rw [hafter]
    exact h

end Machine

/-! ## Runs -/

/-- A machine, the window that shows its screen, and what was painted on the window. -/
structure Viewing where
  machine : Machine
  window : Window
  canvas : Picture Color

namespace Viewing

/-- A machine and a window that was just opened, with cells as squares of sides `scale`. -/
def start (machine : Machine) (scale : Nat) : Viewing where
  machine
  window := (Window.ofScale scale).opened
  canvas := .filled (screenWidth * scale + 2 * Window.borderWidth)
    (screenHeight * scale + 2 * Window.borderWidth) Color.black

/-- The colour of the border. -/
def borderColor (sound : Bool) : Color := if sound then Color.amber else Color.black

/-- The cells of a screen, blown up. -/
def blownUp (cells : Array Bool) (scale : Nat) : Picture Color :=
  (Picture.ofCells cells Color.white Color.black).magnify scale

/-- The strokes with which a screen is shown. -/
def paint (canvas : Picture Color) (scale : Nat) (sound : Bool) (screen : Framebuffer) :
    Picture Color :=
  let edged := canvas.edged Window.borderWidth (borderColor sound)
  if screen.dirty then
    edged.pasted Window.borderWidth Window.borderWidth (blownUp screen.cells scale)
  else edged

/-- The window shows the screen. -/
def present (v : Viewing) (sound : Bool) : Viewing :=
  match Window.present sound (v.machine.screen, v.window) with
  | .ok _ (screen, window) | .error _ (screen, window) =>
    { machine := { v.machine with screen }
      window
      canvas := paint v.canvas v.window.scale sound v.machine.screen }

/-- The screen is another one. -/
def withScreen (v : Viewing) (screen : Framebuffer) : Viewing :=
  { v with machine := { v.machine with screen } }

/-- What an act leaves. -/
def after (v : Viewing) : Act → Viewing
  | .event e => { v with machine := v.machine.after e.call }
  | .draw x y rows => v.withScreen (v.machine.screen.draw x y rows).2
  | .clear => v.withScreen v.machine.screen.clear
  | .present sound => v.present sound

/-- What acts leave, one after the other. -/
def afterAll (v : Viewing) (acts : List Act) : Viewing := acts.foldl after v

/-- Whether an act shows a screen that is marked. -/
def redraws (v : Viewing) : Act → Bool
  | .present _ => v.machine.screen.dirty
  | .event _ | .draw _ _ _ | .clear => false

/-- How many of the acts show a screen that is marked. -/
def redrawn (v : Viewing) : List Act → Nat
  | [] => 0
  | act :: rest => (v.redraws act).toNat + (v.after act).redrawn rest

variable {v : Viewing} {scale : Nat}

theorem present_eq (v : Viewing) (sound : Bool) :
    v.present sound =
      { machine := { v.machine with screen := v.machine.screen.consume.2 }
        window := { v.window with
          border := borderColor sound
          shown := if v.machine.screen.dirty then v.machine.screen.cells else v.window.shown
          drawn := v.window.drawn + v.machine.screen.dirty.toNat }
        canvas := paint v.canvas v.window.scale sound v.machine.screen } := by
  unfold present
  cases hdirty : v.machine.screen.dirty with
  | true =>
    rw [Window.present_of_dirty sound v.window hdirty]
    rfl
  | false =>
    rw [Window.present_of_clean sound v.window hdirty, Framebuffer.consume_of_clean hdirty]
    rfl

/-! ## What is kept -/

/-- The canvas is the picture of the window, and the window has the cells of a screen without the
mark. -/
structure Faithful (v : Viewing) (scale : Nat) : Prop where
  memory_size : v.machine.memory.size = memorySize
  isScreen : v.machine.screen.IsScreen
  scale_eq : v.window.scale = scale
  shown_eq : v.machine.screen.dirty = false → v.window.shown = v.machine.screen.cells
  canvas_eq : v.canvas = v.window.picture

theorem picture_eq (w : Window) :
    w.picture = (blownUp w.shown w.scale).framed Window.borderWidth w.border := rfl

/-- The strokes of a screen turn the old picture into the new one. -/
theorem paint_framed (cells : Array Bool) (scale : Nat) (sound : Bool) (screen : Framebuffer)
    (border : Color) :
    paint ((blownUp cells scale).framed Window.borderWidth border) scale sound screen =
      (blownUp (if screen.dirty then screen.cells else cells) scale).framed Window.borderWidth
        (borderColor sound) := by
  unfold paint
  dsimp only
  rw [Picture.edged_framed]
  cases screen.dirty with
  | true => exact Picture.pasted_framed _ _ rfl rfl
  | false => rfl

theorem faithful_start {m : Machine} (hsize : m.memory.size = memorySize)
    (hscreen : m.screen = .blank screenWidth screenHeight) (scale : Nat) :
    (start m scale).Faithful scale where
  memory_size := hsize
  isScreen := by
    rw [start, hscreen]
    exact .blank
  scale_eq := rfl
  shown_eq _ := by
    rw [start, hscreen]
    rfl
  canvas_eq := by
    show Picture.filled _ _ Color.black = Window.picture _
    rw [picture_eq, blownUp]
    show _ = ((Picture.ofCells Window.darkCells Color.white Color.black).magnify scale).framed
      Window.borderWidth Color.black
    rw [Picture.ofCells_dark _ _ Window.getD_darkCells, Picture.magnify_filled,
      Picture.framed_filled]

/-- A screen that is marked may be any. -/
theorem Faithful.marked {m : Machine} (h : v.Faithful scale) (hsize : m.memory.size = memorySize)
    (hscreen : m.screen.IsScreen) (hdirty : m.screen.dirty = true) :
    Faithful { v with machine := m } scale where
  memory_size := hsize
  isScreen := hscreen
  scale_eq := h.scale_eq
  shown_eq hclean := by
    rw [hdirty] at hclean
    cases hclean
  canvas_eq := h.canvas_eq

theorem Faithful.event (h : v.Faithful scale) (e : Machine.Event) :
    (v.after (.event e)).Faithful scale := by
  have hsize := Machine.size_after h.memory_size e.call
  have hscreen := Machine.isScreen_after h.memory_size h.isScreen e
  cases hdraws : v.machine.draws e with
  | true => exact h.marked hsize hscreen (Machine.dirty_after h.memory_size hdraws)
  | false =>
    have hsame := Machine.screen_after h.memory_size hdraws
    refine ⟨hsize, hscreen, h.scale_eq, ?_, h.canvas_eq⟩
    show (v.machine.after e.call).screen.dirty = false →
      v.window.shown = (v.machine.after e.call).screen.cells
    rw [hsame]
    exact h.shown_eq

/-- A window that has shown the screen has its cells. -/
theorem Faithful.shown_present (h : v.Faithful scale) (sound : Bool) :
    (v.present sound).window.shown = v.machine.screen.cells := by
  rw [present_eq]
  cases hdirty : v.machine.screen.dirty with
  | true => rfl
  | false => exact h.shown_eq hdirty

theorem Faithful.present (h : v.Faithful scale) (sound : Bool) :
    (v.present sound).Faithful scale := by
  have hshown := h.shown_present sound
  rw [present_eq] at hshown ⊢
  refine ⟨h.memory_size, ⟨h.isScreen.width_eq, h.isScreen.height_eq, h.isScreen.cells_size⟩,
    h.scale_eq, fun _ => hshown, ?_⟩
  dsimp only
  rw [h.canvas_eq, picture_eq, paint_framed]
  rfl

/-- Every act keeps the invariant. -/
theorem Faithful.after (h : v.Faithful scale) (act : Act) : (v.after act).Faithful scale := by
  cases act with
  | event e => exact h.event e
  | draw x y rows => exact h.marked h.memory_size (h.isScreen.draw x y rows) rfl
  | clear => exact h.marked h.memory_size h.isScreen.clear rfl
  | present sound => exact h.present sound

theorem Faithful.afterAll (h : v.Faithful scale) (acts : List Act) :
    (v.afterAll acts).Faithful scale := by
  induction acts generalizing v with
  | nil => exact h
  | cons act rest ih => exact ih (h.after act)

theorem drawn_after (v : Viewing) (act : Act) :
    (v.after act).window.drawn = v.window.drawn + (v.redraws act).toNat := by
  cases act with
  | event _ | draw _ _ _ | clear => rfl
  | present sound =>
    show (v.present sound).window.drawn = _
    rw [present_eq]
    rfl

theorem drawn_afterAll (v : Viewing) (acts : List Act) :
    (v.afterAll acts).window.drawn = v.window.drawn + v.redrawn acts := by
  induction acts generalizing v with
  | nil => rfl
  | cons act rest ih =>
    have hrest : (v.afterAll (act :: rest)).window.drawn = _ := ih (v.after act)
    rw [hrest, drawn_after, redrawn, Nat.add_assoc]

/-- **A window shows the screen.** -/
theorem canvas_after_present {m : Machine} (hsize : m.memory.size = memorySize)
    (hscreen : m.screen = .blank screenWidth screenHeight) (scale : Nat) (acts : List Act)
    (sound : Bool) :
    let v := (start m scale).afterAll (acts ++ [.present sound])
    let canvas := v.canvas
    (canvas.width = screenWidth * scale + 8 ∧ canvas.height = screenHeight * scale + 8) ∧
    (∀ x < screenWidth, ∀ y < screenHeight, ∃ lit, v.machine.screen.pixel x y = .ok lit ∧
      ∀ i < scale, ∀ j < scale, canvas.colorAt (4 + x * scale + i) (4 + y * scale + j) =
        if lit then Color.white else Color.black) ∧
    (∀ column < canvas.width, ∀ row < canvas.height,
      (¬∃ x < screenWidth, ∃ y < screenHeight, ∃ i < scale, ∃ j < scale,
        column = 4 + x * scale + i ∧ row = 4 + y * scale + j) →
      canvas.colorAt column row = if sound then Color.amber else Color.black) ∧
    v.window.drawn = (start m scale).redrawn (acts ++ [.present sound]) ∧
    canvas = v.window.picture := by
  intro v canvas
  have hv : v = ((start m scale).afterAll acts).present sound := List.foldl_append
  have h : v.Faithful scale := (faithful_start hsize hscreen scale).afterAll _
  -- After a presentation the window shows the cells as they are now, in a border for the sound.
  have hcanvas : canvas = (blownUp v.machine.screen.cells scale).framed Window.borderWidth
      (borderColor sound) := by
    have hshown : v.window.shown = v.machine.screen.cells :=
      h.shown_eq (by rw [hv, present_eq]; rfl)
    have hborder : v.window.border = borderColor sound := by rw [hv, present_eq]
    have hpicture := h.canvas_eq
    rw [picture_eq, h.scale_eq, hshown, hborder] at hpicture
    exact hpicture
  refine ⟨?_, fun x hx y hy => ?_, fun column _ row _ hplace => ?_, ?_, h.canvas_eq⟩
  · rw [hcanvas]
    exact ⟨rfl, rfl⟩
  · refine ⟨_, h.isScreen.pixel_eq hx hy, fun i hi j hj => ?_⟩
    rw [hcanvas]
    exact Picture.colorAt_framed_magnify hx hy hi hj
  · rw [hcanvas]
    exact Picture.colorAt_framed_border hplace
  · have hdrawn := drawn_afterAll (start m scale) (acts ++ [.present sound])
    rwa [show (start m scale).window.drawn = 0 from rfl, Nat.zero_add] at hdrawn

/-- A sprite of one lit cell was drawn, and a window showed it while there was sound. -/
def viewedOnce : Viewing :=
  (start (Machine.fresh (.ofBytes []) {}) 3).afterAll ([.draw 3 2 [0x80]] ++ [.present true])

/-- The cell is a white square in a window with an amber border. -/
theorem canvas_viewedOnce :
    (Machine.fresh (.ofBytes []) {}).memory.size = memorySize ∧
      (Machine.fresh (.ofBytes []) {}).screen = .blank screenWidth screenHeight ∧
      viewedOnce.canvas.colorAt 14 12 = Color.white ∧
      viewedOnce.canvas.colorAt 0 50 = Color.amber ∧
      viewedOnce.window.drawn = 1 := by
  have hsize : (Machine.fresh (.ofBytes []) {}).memory.size = memorySize := rfl
  have hscreen : (Machine.fresh (.ofBytes []) {}).screen = .blank screenWidth screenHeight := rfl
  obtain ⟨⟨hwidth, hheight⟩, hcells, hborder, hdrawn, -⟩ :=
    canvas_after_present hsize hscreen 3 [.draw 3 2 [0x80]] true
  have hlit : (viewedOnce.machine.screen.pixel (3 : Nat) (2 : Nat)).toOption = some true := by
    decide +kernel
  obtain ⟨lit, hpixel, hsquare⟩ := hcells 3 (by decide) 2 (by decide)
  obtain rfl : lit = true := by
    rw [show viewedOnce.machine.screen.pixel (3 : Nat) (2 : Nat) = .ok lit from hpixel] at hlit
    exact Option.some.inj hlit
  refine ⟨hsize, hscreen, hsquare 1 (by decide) 2 (by decide), ?_, hdrawn⟩
  refine hborder 0 (by rw [hwidth]; decide) 50 (by rw [hheight]; decide) ?_
  rintro ⟨x, -, y, -, i, -, j, -, hplace, -⟩
  omega

end Viewing

end ChipEight
