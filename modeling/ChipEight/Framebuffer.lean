import ChipEight.Room

/-!
# The framebuffer

A grid of cells that are lit or dark, row by row, and a mark that it changed since it was last
shown. A sprite is drawn by flipping the cells under its set bits, wrapping around both edges, and
it collides if it turns a lit cell off.

The sides are integers, because a grid may be asked for with any sides. If both are negative there
are cells all the same; they wrap to places that count from the back.
-/

namespace ChipEight

/-- The width of a machine's screen. -/
def screenWidth : Nat := 64

/-- The height of a machine's screen. -/
def screenHeight : Nat := 32

/-- Why a sprite cannot be drawn. -/
inductive SpriteError where
  /-- The grid has no rows or no columns, so there is no edge to wrap around. -/
  | noSide
  deriving Repr, DecidableEq

/-- The text of the error. -/
def SpriteError.message : SpriteError → String
  | .noSide => "integer modulo by zero"

/-- A grid of cells. -/
structure Framebuffer where
  width : Int
  height : Int
  /-- The cells, row by row; `true` is lit. -/
  cells : Array Bool
  /-- Whether something was drawn or cleared since the grid was last shown. -/
  dirty : Bool
  deriving Repr, DecidableEq

namespace Framebuffer

/-- Dark cells for a grid with some sides. -/
def darkCells (width height : Int) : Array Bool := Array.replicate (width * height).toNat false

/-- A dark grid. -/
def blank (width height : Int) : Framebuffer := ⟨width, height, darkCells width height, false⟩

/-- A dark grid, if there is room for its cells. -/
def create (width height : Int) : Except RoomError Framebuffer :=
  (roomFor (width * height)).map fun _ => blank width height

/-- Turn all cells off. -/
def clear (f : Framebuffer) : Framebuffer :=
  { f with cells := darkCells f.width f.height, dirty := true }

/-- Whether the bit for column `col` of a sprite row is set; column 0 is the highest bit. -/
def bitAt (row : UInt8) (col : Nat) : Bool := row.toNat.testBit (7 - col)

/-- The place of the cell at `(x, y)`, both wrapped around the edges. -/
def place (f : Framebuffer) (x y : Int) : Nat :=
  (fromFront f.cells.size (Int.fmod y f.height * f.width + Int.fmod x f.width)).toNat

/-- The places of the cells under the set bits of a sprite row at `(x, y)`. -/
def rowPlaces (f : Framebuffer) (x y : Int) (row : UInt8) : List Nat :=
  ((List.range 8).filter (bitAt row)).map fun (col : Nat) => f.place (x + col) y

/-- The places of the cells under the set bits of a sprite, in the order in which they are drawn. -/
def spritePlaces (f : Framebuffer) (x y : Int) : List UInt8 → List Nat
  | [] => []
  | row :: rest => f.rowPlaces x y row ++ f.spritePlaces x (y + 1) rest

/-- Flip the cell at each place in turn, and tell whether one of them was lit. -/
def flipAll (cells : Array Bool) : List Nat → Bool × Array Bool
  | [] => (false, cells)
  | k :: rest =>
    let lit := cells.getD k false
    let (hit, cells) := flipAll (cells.setIfInBounds k !lit) rest
    (lit || hit, cells)

@[simp]
theorem size_flipAll (cells : Array Bool) (places : List Nat) :
    (flipAll cells places).2.size = cells.size := by
  induction places generalizing cells with
  | nil => rfl
  | cons k rest ih => simp [flipAll, ih]

/-- Draw a sprite of eight columns with its top left cell at `(x, y)`, and tell whether it
collided. -/
def draw (f : Framebuffer) (x y : Int) (rows : List UInt8) : Bool × Framebuffer :=
  let (hit, cells) := flipAll f.cells (f.spritePlaces x y rows)
  (hit, { f with cells, dirty := true })

/-- Whether a sprite has a place to wrap to: a grid without rows can take no row, and a grid
without columns no set bit. -/
def canDraw (f : Framebuffer) (rows : List UInt8) : Bool :=
  (f.height ≠ 0 || rows.isEmpty) && (f.width ≠ 0 || rows.all (· == 0))

/-- Draw a sprite on a grid that may be without rows or without columns. -/
def drawSprite (f : Framebuffer) (x y : Int) (rows : List UInt8) :
    Except SpriteError (Bool × Framebuffer) :=
  if f.canDraw rows then .ok (f.draw x y rows) else .error .noSide

/-- A grid with rows and columns takes every sprite. -/
theorem drawSprite_of_ne (f : Framebuffer) (hwidth : f.width ≠ 0) (hheight : f.height ≠ 0)
    (x y : Int) (rows : List UInt8) : f.drawSprite x y rows = .ok (f.draw x y rows) := by
  have hcan : f.canDraw rows = true := by simp [canDraw, hwidth, hheight]
  rw [drawSprite, if_pos hcan]

/-- The cell at a position counted as `y * width + x`, which may count from the back. -/
def pixel (f : Framebuffer) (x y : Int) : Except PositionError Bool :=
  (signedIndex "bytearray" f.cells.size (y * f.width + x)).map fun k => f.cells.getD k false

/-- Hand the cells to whoever shows them; the grid then counts as shown. -/
def consume (f : Framebuffer) : Array Bool × Framebuffer := (f.cells, { f with dirty := false })

/-- To take the cells of a grid without the mark changes nothing. -/
theorem consume_of_clean {f : Framebuffer} (h : f.dirty = false) : f.consume.2 = f := by
  unfold consume
  rw [← h]

/-- The cells of row `y`. -/
def row (f : Framebuffer) (y : Nat) : List Bool :=
  (f.cells.extract (y * f.width.toNat) ((y + 1) * f.width.toNat)).toList

/-- The grid as lines of text. -/
def text (f : Framebuffer) (on off : String) : String :=
  "\n".intercalate <| (List.range f.height.toNat).map fun y =>
    String.join ((f.row y).map fun lit => if lit then on else off)

end Framebuffer

end ChipEight
