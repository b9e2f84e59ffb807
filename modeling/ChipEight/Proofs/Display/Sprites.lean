import ChipEight.Framebuffer
import Mathlib.Data.Bool.Basic
import Mathlib.Data.Int.ModEq
import Mathlib.Data.List.ProdSigma
import Mathlib.Data.List.Sigma

/-!
# What a sprite does to a grid

A sprite is drawn cell by cell, and every cell is looked at just before it is flipped. On a narrow
or a low grid the sprite wraps onto itself, so a cell may be flipped more than once and may be lit
only because the same sprite lit it before.

**Theorem (`draw_parity`).** On a grid with rows and columns, wherever the sprite stands and however
many rows it has: `flips` is the number of its set bits that fall on a cell. Afterwards the cell is
lit if it was lit and that number is even, or if it was dark and the number is odd. The sprite
collides exactly if a lit cell is flipped, or any cell twice. So to draw it again gives the cells
back.

The order of the flips does not matter to a cell, only their number does (`toNat_flipAll`), and for
a collision it matters only whether there is one at all (`flipAll_hits_iff`). That the places of the
cells are told apart by columns and rows is arithmetic (`place_eq_iff`).

A sprite that fits on the grid flips no cell twice (`flips_le_one`). It collides exactly if a set
bit lies over a lit cell, and again exactly if one lies over a cell that was dark
(`draw_hits_iff_litUnder`, `draw_draw_hits_iff`).
-/

namespace ChipEight.Framebuffer

/-! ## Flips -/

section Flips

variable {cells : Array Bool} {places : List Nat} {j k : Nat}

theorem getD_flip_self (hk : k < cells.size) (b : Bool) :
    (cells.setIfInBounds k b).getD k false = b := by
  simp [Array.getD_eq_getD_getElem?, hk]

theorem getD_flip_of_ne (h : j ≠ k) (b : Bool) :
    (cells.setIfInBounds k b).getD j false = cells.getD j false := by
  simp [Array.getD_eq_getD_getElem?, h.symm]

theorem flipAll_cons (cells : Array Bool) (k : Nat) (places : List Nat) :
    flipAll cells (k :: places) =
      let flipped := flipAll (cells.setIfInBounds k !cells.getD k false) places
      (cells.getD k false || flipped.1, flipped.2) := rfl

/-- A flip makes no place of a later one disappear. -/
theorem lt_size_flip (h : ∀ j ∈ k :: places, j < cells.size) (b : Bool) :
    ∀ j ∈ places, j < (cells.setIfInBounds k b).size := by
  intro j hj
  rw [Array.size_setIfInBounds]
  exact h j (List.mem_cons_of_mem k hj)

/-- A cell changes with every flip of it, and with no other. -/
theorem toNat_flipAll (h : ∀ j ∈ places, j < cells.size) (k : Nat) :
    ((flipAll cells places).2.getD k false).toNat =
      ((cells.getD k false).toNat + places.count k) % 2 := by
  induction places generalizing cells with
  | nil =>
    have hbit := Bool.toNat_lt (cells.getD k false)
    rw [List.count_nil, Nat.add_zero, Nat.mod_eq_of_lt hbit]
    rfl
  | cons j rest ih =>
    rw [flipAll_cons]
    dsimp only
    rw [ih (lt_size_flip h _)]
    by_cases hk : k = j
    · subst hk
      rw [getD_flip_self (h k List.mem_cons_self), List.count_cons_self]
      -- The first flip changes the bit, and is one more to count.
      cases cells.getD k false with
      | true =>
        show (0 + rest.count k) % 2 = (1 + (rest.count k + 1)) % 2
        omega
      | false =>
        show (1 + rest.count k) % 2 = (0 + (rest.count k + 1)) % 2
        omega
    · rw [getD_flip_of_ne hk, List.count_cons_of_ne (Ne.symm hk)]

/-- Flips hit something exactly if one of them is of a lit cell, or two are of the same. -/
theorem flipAll_hits_iff (h : ∀ j ∈ places, j < cells.size) :
    (flipAll cells places).1 = true ↔
      ∃ k, cells.getD k false = true ∧ 1 ≤ places.count k ∨ 2 ≤ places.count k := by
  induction places generalizing cells with
  | nil => simp [flipAll]
  | cons j rest ih =>
    have hj : j < cells.size := h j List.mem_cons_self
    rw [flipAll_cons]
    dsimp only
    rw [Bool.or_eq_true, ih (lt_size_flip h _)]
    constructor
    · rintro (hlit | ⟨k, hk⟩)
      · exact ⟨j, .inl ⟨hlit, by rw [List.count_cons_self]; omega⟩⟩
      · refine ⟨k, ?_⟩
        by_cases hkj : k = j
        · -- The first flip of this cell and the later one are two.
          subst hkj
          rw [List.count_cons_self]
          omega
        · rwa [getD_flip_of_ne hkj, ← List.count_cons_of_ne (Ne.symm hkj)] at hk
    · rintro ⟨k, hk⟩
      by_cases hkj : k = j
      · subst hkj
        cases hlit : cells.getD k false with
        | true => exact .inl rfl
        | false =>
          rw [hlit, List.count_cons_self] at hk
          have hlater : 1 ≤ rest.count k := by
            rcases hk with ⟨hfalse, -⟩ | htwo
            · cases hfalse
            · omega
          -- The cell was dark, so the first flip lights it and the later one hits it.
          exact .inr ⟨k, .inl ⟨getD_flip_self hj _, hlater⟩⟩
      · rw [List.count_cons_of_ne (Ne.symm hkj)] at hk
        exact .inr ⟨k, by rwa [getD_flip_of_ne hkj]⟩

end Flips

/-! ## Places -/

/-- The framebuffer is a grid of `w` columns and `h` rows, with a cell for each. -/
structure IsGrid (f : Framebuffer) (w h : Nat) : Prop where
  width_eq : f.width = w
  height_eq : f.height = h
  cells_size : f.cells.size = w * h

/-- Whether the cell in column `i` and row `j` of a grid is lit. -/
def lit (f : Framebuffer) (i j : Nat) : Bool := f.cells.getD (j * f.width.toNat + i) false

theorem lit_blank (width height : Int) (i j : Nat) : (blank width height).lit i j = false := by
  unfold lit blank darkCells
  rw [Array.getD_eq_getD_getElem?, Array.getElem?_replicate]
  split <;> rfl

/-- How often a sprite at `(x, y)` flips the cell in column `i` and row `j`: how many of its bits
are set and fall there. -/
def flips (w h : Nat) (x y : Int) (rows : List UInt8) (i j : Nat) : Nat :=
  (rows.zipIdx ×ˢ List.range 8).countP fun ((bits, row), col) =>
    bitAt bits col ∧ (x + col) % w = i ∧ (y + row) % h = j

section Grid

variable {f : Framebuffer} {w h : Nat} (hgrid : f.IsGrid w h)

include hgrid

theorem lit_eq (i j : Nat) : f.lit i j = f.cells.getD (j * w + i) false := by
  rw [lit, hgrid.width_eq]
  rfl

variable (hw : 0 < w) (hh : 0 < h)

include hw hh

theorem place_eq_row_add (x y : Int) :
    f.place x y = (y % h).toNat * w + (x % w).toNat := by
  have hx : 0 ≤ x % w := Int.emod_nonneg x (by omega)
  have hy : 0 ≤ y % h := Int.emod_nonneg y (by omega)
  have hrow : 0 ≤ y % h * w := Int.mul_nonneg hy (by omega)
  unfold place fromFront
  rw [hgrid.width_eq, hgrid.height_eq, Int.fmod_eq_emod_of_nonneg _ (by omega),
    Int.fmod_eq_emod_of_nonneg _ (by omega), if_pos (by omega), Int.toNat_add hrow hx,
    Int.toNat_mul hy (by omega), Int.toNat_natCast]

/-- A place lies in the grid, wherever the sprite is. -/
theorem exists_place (x y : Int) : ∃ i < w, ∃ j < h, f.place x y = j * w + i := by
  have hx := Int.emod_lt_of_pos x (by omega : (0 : Int) < w)
  have hy := Int.emod_lt_of_pos y (by omega : (0 : Int) < h)
  exact ⟨(x % w).toNat, by omega, (y % h).toNat, by omega, place_eq_row_add hgrid hw hh x y⟩

/-- The place of a cell tells its column and its row. -/
theorem place_eq_iff (x y : Int) {i j : Nat} (hi : i < w) :
    f.place x y = j * w + i ↔ x % w = i ∧ y % h = j := by
  have hx := Int.emod_nonneg x (by omega : (w : Int) ≠ 0)
  have hy := Int.emod_nonneg y (by omega : (h : Int) ≠ 0)
  have hxlt := Int.emod_lt_of_pos x (by omega : (0 : Int) < w)
  have hlt : (x % w).toNat < w := by omega
  rw [place_eq_row_add hgrid hw hh]
  constructor
  · intro heq
    have hcol := congrArg (· % w) heq
    have hrow := congrArg (· / w) heq
    simp only [Nat.mul_comm _ w, Nat.mul_add_mod, Nat.mul_add_div hw, Nat.mod_eq_of_lt hlt,
      Nat.mod_eq_of_lt hi, Nat.div_eq_of_lt hlt, Nat.div_eq_of_lt hi] at hcol hrow
    omega
  · rintro ⟨hcol, hrow⟩
    rw [hcol, hrow]
    rfl

/-! ## How often a cell is flipped -/

theorem exists_of_mem_spritePlaces {x y : Int} {rows : List UInt8} {k : Nat}
    (hk : k ∈ f.spritePlaces x y rows) : ∃ i < w, ∃ j < h, k = j * w + i := by
  induction rows generalizing y with
  | nil => exact absurd hk List.not_mem_nil
  | cons row rest ih =>
    rcases List.mem_append.1 hk with hrow | hrest
    · obtain ⟨col, -, rfl⟩ := List.mem_map.1 hrow
      exact exists_place hgrid hw hh (x + col) y
    · exact ih hrest

theorem lt_of_mem_spritePlaces {x y : Int} {rows : List UInt8} :
    ∀ k ∈ f.spritePlaces x y rows, k < f.cells.size := by
  intro k hk
  obtain ⟨i, hi, j, hj, rfl⟩ := exists_of_mem_spritePlaces hgrid hw hh hk
  rw [hgrid.cells_size]
  calc j * w + i < j * w + w := by omega
    _ = (j + 1) * w := (Nat.succ_mul j w).symm
    _ ≤ h * w := Nat.mul_le_mul_right w hj
    _ = w * h := Nat.mul_comm h w

theorem count_rowPlaces (x y : Int) (bits : UInt8) {i j : Nat} (hi : i < w) :
    (f.rowPlaces x y bits).count (j * w + i) =
      (List.range 8).countP fun col => bitAt bits col ∧ (x + col) % w = i ∧ y % h = j := by
  rw [rowPlaces, List.count_eq_countP, List.countP_map, List.countP_filter]
  refine List.countP_congr fun col _ => ?_
  simp only [Function.comp_apply, Bool.and_eq_true, beq_iff_eq, decide_eq_true_eq,
    place_eq_iff hgrid hw hh _ _ hi]
  exact and_comm

/-- Among the places of a sprite whose first row is the one at `start`, a cell stands as often as
set bits fall on it. -/
theorem count_spritePlaces (x y : Int) (start : Nat) (rows : List UInt8) {i j : Nat} (hi : i < w) :
    (f.spritePlaces x (y + start) rows).count (j * w + i) =
      (rows.zipIdx start ×ˢ List.range 8).countP fun ((bits, row), col) =>
        bitAt bits col ∧ (x + col) % w = i ∧ (y + row) % h = j := by
  induction rows generalizing start with
  | nil => rfl
  | cons bits rest ih =>
    have hnext : y + start + 1 = y + (start + 1 : Nat) := by omega
    rw [spritePlaces, List.count_append, List.zipIdx_cons, List.product_cons, List.countP_append,
      List.countP_map, hnext, ih (start + 1), count_rowPlaces hgrid hw hh _ _ _ hi]
    rfl

theorem count_eq_flips (x y : Int) (rows : List UInt8) {i j : Nat} (hi : i < w) :
    (f.spritePlaces x y rows).count (j * w + i) = flips w h x y rows i j := by
  have hcount := count_spritePlaces hgrid hw hh x y 0 rows (j := j) hi
  rwa [Int.natCast_zero, Int.add_zero] at hcount

/-! ## Sprites -/

omit hw hh in
/-- A sprite leaves a grid of the same size. -/
theorem IsGrid.draw (x y : Int) (rows : List UInt8) : (f.draw x y rows).2.IsGrid w h :=
  { hgrid with cells_size := (size_flipAll _ _).trans hgrid.cells_size }

theorem toNat_lit_draw (x y : Int) (rows : List UInt8) {i j : Nat} (hi : i < w) :
    ((f.draw x y rows).2.lit i j).toNat =
      ((f.lit i j).toNat + flips w h x y rows i j) % 2 := by
  rw [lit_eq (hgrid.draw x y rows), lit_eq hgrid, ← count_eq_flips hgrid hw hh x y rows hi]
  exact toNat_flipAll (lt_of_mem_spritePlaces hgrid hw hh) _

theorem draw_hits_iff (x y : Int) (rows : List UInt8) :
    (f.draw x y rows).1 = true ↔ ∃ i < w, ∃ j < h,
      f.lit i j = true ∧ 1 ≤ flips w h x y rows i j ∨ 2 ≤ flips w h x y rows i j := by
  have hplaces : ∀ k ∈ f.spritePlaces x y rows, k < f.cells.size :=
    lt_of_mem_spritePlaces hgrid hw hh
  refine (flipAll_hits_iff hplaces).trans ⟨?_, ?_⟩
  · rintro ⟨k, hk⟩
    have hmem : k ∈ f.spritePlaces x y rows := List.one_le_count_iff.1 (by omega)
    obtain ⟨i, hi, j, hj, rfl⟩ := exists_of_mem_spritePlaces hgrid hw hh hmem
    rw [count_eq_flips hgrid hw hh x y rows hi, ← lit_eq hgrid] at hk
    exact ⟨i, hi, j, hj, hk⟩
  · rintro ⟨i, hi, j, -, hcell⟩
    refine ⟨j * w + i, ?_⟩
    rwa [count_eq_flips hgrid hw hh x y rows hi, ← lit_eq hgrid]

omit hh in
/-- A grid with the same sides is the same grid if its cells are lit alike. -/
theorem cells_eq_of_lit {g : Framebuffer} (hother : g.IsGrid w h)
    (hlit : ∀ i < w, ∀ j < h, g.lit i j = f.lit i j) : g.cells = f.cells := by
  have hsize : g.cells.size = f.cells.size := hother.cells_size.trans hgrid.cells_size.symm
  refine Array.ext hsize fun k hk hk' => ?_
  have hrow : k / w < h := by
    rw [hgrid.cells_size] at hk'
    exact Nat.div_lt_of_lt_mul hk'
  have hcell := hlit (k % w) (Nat.mod_lt k hw) (k / w) hrow
  rw [lit_eq hother, lit_eq hgrid, Nat.mul_comm, Nat.div_add_mod,
    Array.getD_eq_getD_getElem?, Array.getD_eq_getD_getElem?, Array.getElem?_eq_getElem hk,
    Array.getElem?_eq_getElem hk'] at hcell
  exact hcell

/-- A sprite that is drawn twice flips every cell an even number of times. -/
theorem cells_draw_draw (x y : Int) (rows : List UInt8) :
    ((f.draw x y rows).2.draw x y rows).2.cells = f.cells := by
  have hdrawn : (f.draw x y rows).2.IsGrid w h := hgrid.draw x y rows
  refine cells_eq_of_lit hgrid hw (hdrawn.draw x y rows) fun i hi j _ => ?_
  have hfirst := toNat_lit_draw hgrid hw hh x y rows (j := j) hi
  have hsecond := toNat_lit_draw hdrawn hw hh x y rows (j := j) hi
  have hbit := Bool.toNat_lt (f.lit i j)
  have htwice : (((f.draw x y rows).2.draw x y rows).2.lit i j).toNat = (f.lit i j).toNat := by
    omega
  exact Function.LeftInverse.injective Bool.ofNat_toNat htwice

/-- **What a sprite does to a grid.** -/
theorem draw_parity (x y : Int) (rows : List UInt8) :
    let drawing := f.draw x y rows
    (∀ i < w, ∀ j < h, (drawing.2.lit i j).toNat =
        ((f.lit i j).toNat + flips w h x y rows i j) % 2) ∧
      drawing.2.IsGrid w h ∧ drawing.2.dirty = true ∧
      (drawing.1 = true ↔ ∃ i < w, ∃ j < h,
        f.lit i j = true ∧ 1 ≤ flips w h x y rows i j ∨ 2 ≤ flips w h x y rows i j) ∧
      (drawing.2.draw x y rows).2.cells = f.cells :=
  ⟨fun _ hi _ _ => toNat_lit_draw hgrid hw hh x y rows hi, hgrid.draw x y rows, rfl,
    draw_hits_iff hgrid hw hh x y rows, cells_draw_draw hgrid hw hh x y rows⟩

end Grid

/-- On a grid of three columns and two rows a row of eight bits wraps onto itself, and the third row
stands on the first. -/
theorem draw_parity_narrow :
    (blank 3 2).IsGrid 3 2 ∧ 0 < 3 ∧ 0 < 2 ∧
      flips 3 2 (-1) 1 [0xFF, 0x00, 0x81] 0 1 = 4 ∧
      ((blank 3 2).draw (-1) 1 [0xFF, 0x00, 0x81]).1 = true ∧
      ((blank 3 2).draw (-1) 1 [0xFF, 0x00, 0x81]).2.lit 0 1 = false ∧
      (((blank 3 2).draw (-1) 1 [0xFF, 0x00, 0x81]).2.draw (-1) 1 [0xFF, 0x00, 0x81]).2.cells =
        (blank 3 2).cells := by
  have hgrid : (blank 3 2).IsGrid 3 2 := ⟨rfl, rfl, by decide⟩
  have hflips : flips 3 2 (-1) 1 [0xFF, 0x00, 0x81] 0 1 = 4 := by decide
  obtain ⟨hparity, -, -, hhits, hagain⟩ :=
    draw_parity hgrid (by decide) (by decide) (-1) 1 [0xFF, 0x00, 0x81]
  refine ⟨hgrid, by decide, by decide, hflips, hhits.2 ⟨0, by decide, 1, by decide, .inr ?_⟩, ?_,
    hagain⟩
  · rw [hflips]
    decide
  · have hcell := hparity 0 (by decide) 1 (by decide)
    rw [hflips] at hcell
    exact Bool.toNat_eq_zero.1 hcell

/-! ## Sprites that do not wrap onto themselves -/

/-- Bit `col` in row `row` of a sprite is set. -/
def SetBit (rows : List UInt8) (row col : Nat) : Prop :=
  ∃ bits, rows[row]? = some bits ∧ col < 8 ∧ bitAt bits col = true

/-- Whether the cell is lit that lies under a bit of a sprite at `(x, y)`. -/
def litUnder (f : Framebuffer) (x y : Int) (row col : Nat) : Bool :=
  f.lit ((x + col) % f.width).toNat ((y + row) % f.height).toNat

theorem one_le_flips_iff {w h : Nat} {x y : Int} {rows : List UInt8} {i j : Nat} :
    1 ≤ flips w h x y rows i j ↔
      ∃ row col, SetBit rows row col ∧ (x + col) % w = i ∧ (y + row) % h = j := by
  unfold flips
  rw [Nat.one_le_iff_ne_zero, Nat.ne_zero_iff_zero_lt, List.countP_pos_iff]
  constructor
  · rintro ⟨⟨⟨bits, row⟩, col⟩, hmem, hfalls⟩
    obtain ⟨hrow, hcol⟩ := List.mem_product.1 hmem
    obtain ⟨hbit, htarget⟩ := of_decide_eq_true hfalls
    exact ⟨row, col, ⟨bits, List.mem_zipIdx_iff_getElem?.1 hrow, List.mem_range.1 hcol, hbit⟩,
      htarget⟩
  · rintro ⟨row, col, ⟨bits, hrow, hcol, hbit⟩, htarget⟩
    refine ⟨((bits, row), col), List.mem_product.2 ⟨?_, List.mem_range.2 hcol⟩,
      decide_eq_true ⟨hbit, htarget⟩⟩
    exact List.mem_zipIdx_iff_getElem?.2 hrow

/-- Two offsets within one side of a grid that lead to the same place are the same. -/
theorem eq_of_add_emod_eq {x : Int} {a b w : Nat} (ha : a < w) (hb : b < w)
    (h : (x + a) % w = (x + b) % w) : a = b := by
  have hmod : (a : Int) % w = b % w := Int.ModEq.add_left_cancel' x h
  rw [Int.emod_eq_of_lt (by omega) (by omega), Int.emod_eq_of_lt (by omega) (by omega)] at hmod
  omega

/-- A sprite that is no larger than the grid flips no cell twice. -/
theorem flips_le_one {w h : Nat} {x y : Int} {rows : List UInt8} (hw : 8 ≤ w)
    (hh : rows.length ≤ h) (i j : Nat) : flips w h x y rows i j ≤ 1 := by
  by_cases hnone : flips w h x y rows i j = 0
  · omega
  · obtain ⟨⟨⟨bits, row⟩, col⟩, hmem, hfalls⟩ := List.countP_pos_iff.1 (Nat.pos_of_ne_zero hnone)
    obtain ⟨hrow, hcol⟩ := List.mem_product.1 hmem
    have hbits := List.mem_zipIdx_iff_getElem?.1 hrow
    obtain ⟨-, hx, hy⟩ := of_decide_eq_true hfalls
    have hnodup : (rows.zipIdx ×ˢ List.range 8).Nodup :=
      (List.Nodup.of_map Prod.snd (List.nodup_zipIdx_map_snd rows)).product List.nodup_range
    refine Nat.le_trans (List.countP_mono_left ?_) (List.nodup_iff_count_le_one.1 hnodup
      ((bits, row), col))
    -- Whatever falls on the cell has the row and the column of the bit that does.
    rintro ⟨⟨bits', row'⟩, col'⟩ hmem' hfalls'
    obtain ⟨hrow', hcol'⟩ := List.mem_product.1 hmem'
    have hbits' := List.mem_zipIdx_iff_getElem?.1 hrow'
    obtain ⟨-, hx', hy'⟩ := of_decide_eq_true hfalls'
    have hlt := (List.getElem?_eq_some_iff.1 hbits).1
    have hlt' := (List.getElem?_eq_some_iff.1 hbits').1
    have hcols := List.mem_range.1 hcol
    have hcols' := List.mem_range.1 hcol'
    obtain rfl : row' = row := eq_of_add_emod_eq (by omega) (by omega) (hy'.trans hy.symm)
    obtain rfl : col' = col := eq_of_add_emod_eq (by omega) (by omega) (hx'.trans hx.symm)
    obtain rfl : bits' = bits := Option.some.inj (hbits'.symm.trans hbits)
    exact beq_self_eq_true _

section Fits

variable {f : Framebuffer} {w h : Nat} (hgrid : f.IsGrid w h) {x y : Int} {rows : List UInt8}

include hgrid

theorem litUnder_eq (x y : Int) (row col : Nat) :
    f.litUnder x y row col = f.lit ((x + col) % w).toNat ((y + row) % h).toNat := by
  rw [litUnder, hgrid.width_eq, hgrid.height_eq]

variable (hw : 8 ≤ w) (hh : 0 < h) (hrows : rows.length ≤ h)

include hw hh

/-- A bit of a sprite lies over a cell of the grid. -/
theorem exists_target (x y : Int) (row col : Nat) :
    ∃ i < w, ∃ j < h, (x + col) % w = (i : Int) ∧ (y + row) % h = (j : Int) ∧
      f.litUnder x y row col = f.lit i j := by
  have hi := Int.emod_nonneg (x + col) (by omega : (w : Int) ≠ 0)
  have hj := Int.emod_nonneg (y + row) (by omega : (h : Int) ≠ 0)
  have hiw := Int.emod_lt_of_pos (x + col) (by omega : (0 : Int) < w)
  have hjh := Int.emod_lt_of_pos (y + row) (by omega : (0 : Int) < h)
  exact ⟨_, by omega, _, by omega, (Int.toNat_of_nonneg hi).symm, (Int.toNat_of_nonneg hj).symm,
    litUnder_eq hgrid x y row col⟩

include hrows

/-- A sprite that fits collides exactly if one of its set bits lies over a lit cell. -/
theorem draw_hits_iff_litUnder :
    (f.draw x y rows).1 = true ↔
      ∃ row col, SetBit rows row col ∧ f.litUnder x y row col = true := by
  rw [draw_hits_iff hgrid (by omega) hh]
  constructor
  · rintro ⟨i, hi, j, hj, hcell⟩
    have hflips := flips_le_one (x := x) (y := y) hw hrows i j
    obtain ⟨hlit, hone⟩ : f.lit i j = true ∧ 1 ≤ flips w h x y rows i j := by
      rcases hcell with hcell | htwo
      · exact hcell
      · omega
    obtain ⟨row, col, hbit, hx, hy⟩ := one_le_flips_iff.1 hone
    refine ⟨row, col, hbit, ?_⟩
    rw [litUnder_eq hgrid, hx, hy]
    exact hlit
  · rintro ⟨row, col, hbit, hlit⟩
    obtain ⟨i, hi, j, hj, hx, hy, hunder⟩ := exists_target hgrid hw hh x y row col
    exact ⟨i, hi, j, hj, .inl ⟨hunder ▸ hlit, one_le_flips_iff.2 ⟨row, col, hbit, hx, hy⟩⟩⟩

/-- Under each of its set bits a sprite that fits turns the cell over. -/
theorem litUnder_draw {row col : Nat} (hbit : SetBit rows row col) :
    (f.draw x y rows).2.litUnder x y row col = !f.litUnder x y row col := by
  obtain ⟨i, hi, j, hj, hx, hy, hunder⟩ := exists_target hgrid hw hh x y row col
  have hone : flips w h x y rows i j = 1 :=
    Nat.le_antisymm (flips_le_one hw hrows i j) (one_le_flips_iff.2 ⟨row, col, hbit, hx, hy⟩)
  have hparity := toNat_lit_draw hgrid (by omega) hh x y rows (j := j) hi
  rw [litUnder_eq (hgrid.draw x y rows), hx, hy, hunder]
  show (f.draw x y rows).2.lit i j = _
  rw [hone] at hparity
  cases hlit : f.lit i j with
  | true =>
    rw [hlit] at hparity
    exact Bool.toNat_eq_zero.1 hparity
  | false =>
    rw [hlit] at hparity
    exact Bool.toNat_eq_one.1 hparity

/-- Drawn again, a sprite that fits collides exactly if one of its set bits lay over a dark cell. -/
theorem draw_draw_hits_iff :
    ((f.draw x y rows).2.draw x y rows).1 = true ↔
      ∃ row col, SetBit rows row col ∧ f.litUnder x y row col = false := by
  rw [draw_hits_iff_litUnder (hgrid.draw x y rows) hw hh hrows]
  refine exists_congr fun row => exists_congr fun col => and_congr_right fun hbit => ?_
  rw [litUnder_draw hgrid hw hh hrows hbit, Bool.not_eq_true']

end Fits

/-! ## What the mark does not matter to -/

/-- Where a sprite is drawn is up to the grid and not to the mark that it changed. -/
theorem spritePlaces_congr {f g : Framebuffer} (hwidth : g.width = f.width)
    (hheight : g.height = f.height) (hcells : g.cells = f.cells) (x y : Int) (rows : List UInt8) :
    g.spritePlaces x y rows = f.spritePlaces x y rows := by
  induction rows generalizing y with
  | nil => rfl
  | cons row rest ih =>
    have hplace : g.place = f.place := by
      funext x y
      rw [place, place, hwidth, hheight, hcells]
    rw [spritePlaces, spritePlaces, ih, rowPlaces, rowPlaces, hplace]

theorem draw_congr {f g : Framebuffer} (hwidth : g.width = f.width) (hheight : g.height = f.height)
    (hcells : g.cells = f.cells) (x y : Int) (rows : List UInt8) :
    g.draw x y rows = f.draw x y rows := by
  rw [draw, draw, spritePlaces_congr hwidth hheight hcells, hcells, hwidth, hheight]

end ChipEight.Framebuffer
