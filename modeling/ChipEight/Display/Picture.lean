import ChipEight.Framebuffer

/-!
# Pictures

Coloured pictures of a screen, as a colour for each place: the cells in two colours, every cell
blown up to a square, and a border around it. What a colour is does not matter to a picture.
-/

namespace ChipEight

/-- A colour by its three parts. -/
structure Color where
  red : UInt8
  green : UInt8
  blue : UInt8
  deriving Repr, DecidableEq

/-- The colour of lit cells. -/
def Color.white : Color := ⟨255, 255, 255⟩

/-- The colour of dark cells. -/
def Color.black : Color := ⟨0, 0, 0⟩

/-- The colour of the border while there is sound. -/
def Color.amber : Color := ⟨255, 170, 0⟩

/-- A colour for each place of a rectangle; what lies outside does not matter. -/
@[ext]
structure Picture (κ : Type) where
  width : Nat
  height : Nat
  /-- The colour at a column and a row. -/
  colorAt : Nat → Nat → κ

namespace Picture

variable {κ : Type}

/-- The cells of a screen in two colours. -/
def ofCells (cells : Array Bool) (on off : κ) : Picture κ where
  width := screenWidth
  height := screenHeight
  colorAt x y := if cells.getD (y * screenWidth + x) false then on else off

/-- Every place as a square of `scale` places a side. -/
def magnify (p : Picture κ) (scale : Nat) : Picture κ where
  width := p.width * scale
  height := p.height * scale
  colorAt x y := p.colorAt (x / scale) (y / scale)

/-- The picture with a border of some thickness around it. -/
def framed (p : Picture κ) (thickness : Nat) (border : κ) : Picture κ where
  width := p.width + 2 * thickness
  height := p.height + 2 * thickness
  colorAt x y :=
    if thickness ≤ x ∧ x < thickness + p.width ∧ thickness ≤ y ∧ y < thickness + p.height then
      p.colorAt (x - thickness) (y - thickness)
    else border

/-- The colours of a row, from left to right. -/
def row (p : Picture κ) (y : Nat) : List κ := (List.range p.width).map fun x => p.colorAt x y

/-- The colours of a column, from top to bottom. -/
def column (p : Picture κ) (x : Nat) : List κ := (List.range p.height).map (p.colorAt x)

end Picture

end ChipEight
