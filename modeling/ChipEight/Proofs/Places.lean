import ChipEight.Framebuffer
import ChipEight.Proofs.Memory

/-!
# Places that have to exist

The accesses to bytes and cells are plain: where there is no item they read a zero and drop a write.
Here is a second reading of each of them that has no answer unless every place it comes to exists.
The two agree wherever memory was checked before (`blockAt?_eq`, `overwriteAt?_eq`), and on a screen
with its rows and columns for sprites anywhere (`drawAt?_eq`).
-/

namespace ChipEight

/-! ## Items -/

section Items

variable {α : Type}

/-- The item at a place that has to exist. -/
def itemAt? (items : Array α) (place : Int) : Option α :=
  if 0 ≤ place then items[place.toNat]? else none

/-- The items with another one at a place that has to exist. -/
def replaceAt? (items : Array α) (place : Int) (item : α) : Option (Array α) :=
  if 0 ≤ place ∧ place < items.size then some (items.setIfInBounds place.toNat item) else none

theorem itemAt?_eq {items : Array α} {place : Int} (h0 : 0 ≤ place) (h1 : place < items.size)
    (default : α) : itemAt? items place = some (items.getD place.toNat default) := by
  have hlt : place.toNat < items.size := by omega
  rw [itemAt?, if_pos h0, Array.getD_eq_getD_getElem?, Array.getElem?_eq_getElem hlt,
    Option.getD_some]

theorem replaceAt?_eq {items : Array α} {place : Int} (h0 : 0 ≤ place) (h1 : place < items.size)
    (item : α) : replaceAt? items place item = some (items.setIfInBounds place.toNat item) := by
  rw [replaceAt?, if_pos ⟨h0, h1⟩]

end Items

/-! ## Bytes -/

/-- Put bytes over the stored ones from `start` on, all of which have to exist. -/
def overwriteAt? (bytes : Array UInt8) (start : Int) : List UInt8 → Option (Array UInt8)
  | [] => some bytes
  | value :: rest => do
    let bytes ← replaceAt? bytes start value
    overwriteAt? bytes (start + 1) rest

theorem overwriteAt?_eq {bytes : Array UInt8} {start : Int} {values : List UInt8}
    (h0 : 0 ≤ start) (h1 : start + values.length ≤ bytes.size) :
    overwriteAt? bytes start values = some (overwrite bytes start.toNat values) := by
  induction values generalizing bytes start with
  | nil => rfl
  | cons value rest ih =>
    rw [List.length_cons] at h1
    have hnext : (start + 1).toNat = start.toNat + 1 := by omega
    have hrest : overwriteAt? (bytes.setIfInBounds start.toNat value) (start + 1) rest =
        some (overwrite (bytes.setIfInBounds start.toNat value) (start + 1).toNat rest) :=
      ih (by omega) (by rw [Array.size_setIfInBounds]; omega)
    rw [hnext] at hrest
    rw [overwriteAt?, replaceAt?_eq h0 (by omega)]
    exact hrest

namespace Memory

/-- The word at an address, both bytes of which have to exist. -/
def wordAt? (mem : Memory) (address : Int) : Option UInt16 := do
  let high ← itemAt? mem.bytes address
  let low ← itemAt? mem.bytes (address + 1)
  return Word.ofBytes high low

/-- The bytes of a range, all of which have to exist. -/
def blockAt? (mem : Memory) (start : Int) : Nat → Option (List UInt8)
  | 0 => some []
  | length + 1 => do
    let value ← itemAt? mem.bytes start
    let rest ← mem.blockAt? (start + 1) length
    return value :: rest

variable {mem : Memory} {start : Int} {length : Nat}

theorem bytes_wordAt? {address : Int} {word : UInt16} (h : mem.wordAt? address = some word) :
    ∃ high low, itemAt? mem.bytes address = some high ∧
      itemAt? mem.bytes (address + 1) = some low ∧ word = Word.ofBytes high low := by
  unfold wordAt? at h
  obtain ⟨high, hhigh, h⟩ := Option.bind_eq_some_iff.1 h
  obtain ⟨low, hlow, h⟩ := Option.bind_eq_some_iff.1 h
  exact ⟨high, low, hhigh, hlow, (Option.some.inj h).symm⟩

theorem wordAt?_eq {address : Int} (h0 : 0 ≤ address) (h1 : address + 2 ≤ mem.bytes.size) :
    mem.wordAt? address = some (mem.word address) := by
  have hnext : (address + 1).toNat = address.toNat + 1 := by omega
  rw [wordAt?, itemAt?_eq h0 (by omega) 0, itemAt?_eq (by omega) (by omega) 0, hnext]
  rfl

theorem length_blockAt? {values : List UInt8} (h : mem.blockAt? start length = some values) :
    values.length = length := by
  induction length generalizing start values with
  | zero =>
    cases h
    rfl
  | succ length ih =>
    obtain ⟨value, -, h⟩ := Option.bind_eq_some_iff.1 h
    obtain ⟨rest, hrest, h⟩ := Option.bind_eq_some_iff.1 h
    cases h
    rw [List.length_cons, ih hrest]

theorem block_eq_take (h0 : 0 ≤ start) (h1 : start + length ≤ mem.bytes.size) :
    mem.block start length = (mem.bytes.toList.drop start.toNat).take length := by
  have hend : signedEnd mem.bytes.size (start + length) = start.toNat + length := by
    unfold signedEnd fromFront
    rw [if_pos (by omega)]
    omega
  rw [block, hend, Array.toList_extract, List.extract_eq_take_drop]
  congr 1
  omega

theorem getElem?_block (h0 : 0 ≤ start) (h1 : start + length ≤ mem.bytes.size) (k : Nat) :
    (mem.block start length)[k]? =
      if k < length then some (mem.byteAt (start.toNat + k)) else none := by
  rw [block_eq_take h0 h1, List.getElem?_take]
  split
  · have hlt : start.toNat + k < mem.bytes.size := by omega
    rw [List.getElem?_drop, Array.getElem?_toList, byteAt, Array.getD_eq_getD_getElem?,
      Array.getElem?_eq_getElem hlt, Option.getD_some]
  · rfl

/-- The bytes of the range that was written are the bytes that were put there. -/
theorem block_put {mem : Memory} {start : Int} {values : List UInt8} (h0 : 0 ≤ start)
    (h1 : start + values.length ≤ mem.bytes.size) :
    (mem.put start values).block start values.length = values := by
  have hinside : start + values.length ≤ (mem.put start values).bytes.size := by
    rwa [size_bytes_put]
  refine List.ext_getElem? fun k => ?_
  rw [getElem?_block h0 hinside]
  split
  · next hk => rw [byteAt_put_of_inside (by omega) hk, List.getElem?_eq_getElem hk]
  · next hk => rw [List.getElem?_eq_none (Nat.le_of_not_lt hk)]

theorem blockAt?_eq (h0 : 0 ≤ start) (h1 : start + length ≤ mem.bytes.size) :
    mem.blockAt? start length = some (mem.block start length) := by
  rw [block_eq_take h0 h1]
  induction length generalizing start with
  | zero => rfl
  | succ length ih =>
    have hlt : start.toNat < mem.bytes.toList.length := by
      rw [Array.length_toList]
      omega
    have hnext : (start + 1).toNat = start.toNat + 1 := by omega
    have hvalue : mem.bytes.getD start.toNat 0 = mem.bytes.toList[start.toNat] := by
      rw [Array.getD_eq_getD_getElem?, Array.getElem?_eq_getElem (by simpa using hlt)]
      rfl
    rw [blockAt?, itemAt?_eq h0 (by omega) 0, ih (by omega) (by omega), hnext, hvalue,
      List.drop_eq_getElem_cons hlt]
    rfl

end Memory

/-! ## Cells -/

namespace Framebuffer

/-- The place of the cell at `(x, y)` as it is computed, before anything makes it a plain number. -/
def cellPlace (f : Framebuffer) (x y : Int) : Int :=
  Int.fmod y f.height * f.width + Int.fmod x f.width

/-- The places of the cells under the set bits of a sprite, as they are computed. -/
def cellPlaces (f : Framebuffer) (x y : Int) : List UInt8 → List Int
  | [] => []
  | row :: rest =>
    (((List.range 8).filter (bitAt row)).map fun (col : Nat) => f.cellPlace (x + col) y) ++
      f.cellPlaces x (y + 1) rest

/-- Flip the cell at each place in turn, all of which have to exist. -/
def flipAllAt? (cells : Array Bool) : List Int → Option (Bool × Array Bool)
  | [] => some (false, cells)
  | k :: rest => do
    let lit ← itemAt? cells k
    let flipped ← replaceAt? cells k !lit
    let result ← flipAllAt? flipped rest
    return (lit || result.1, result.2)

/-- Draw a sprite all of whose cells have to exist. -/
def drawAt? (f : Framebuffer) (x y : Int) (rows : List UInt8) : Option (Bool × Framebuffer) := do
  let result ← flipAllAt? f.cells (f.cellPlaces x y rows)
  return (result.1, { f with cells := result.2, dirty := true })

theorem flipAllAt?_eq {cells : Array Bool} {places : List Int}
    (h : ∀ k ∈ places, 0 ≤ k ∧ k < cells.size) :
    flipAllAt? cells places = some (flipAll cells (places.map Int.toNat)) := by
  induction places generalizing cells with
  | nil => rfl
  | cons k rest ih =>
    obtain ⟨h0, h1⟩ := h k List.mem_cons_self
    have hlit := itemAt?_eq h0 h1 false
    have hflip := replaceAt?_eq h0 h1 (!cells.getD k.toNat false)
    have hrest : flipAllAt? (cells.setIfInBounds k.toNat !cells.getD k.toNat false) rest =
        some (flipAll (cells.setIfInBounds k.toNat !cells.getD k.toNat false)
          (rest.map Int.toNat)) := by
      refine ih fun j hj => ?_
      rw [Array.size_setIfInBounds]
      exact h j (List.mem_cons_of_mem k hj)
    simp only [flipAllAt?, hlit, hflip, hrest, Option.bind_eq_bind, Option.bind_some, List.map_cons,
      flipAll]
    rfl

section Screen

variable {f : Framebuffer} (hwidth : f.width = screenWidth) (hheight : f.height = screenHeight)
  (hcells : f.cells.size = screenWidth * screenHeight)

include hwidth hheight hcells

/-- A place is computed from remainders, so it lies in the grid wherever the sprite is. -/
theorem cellPlace_bounds (x y : Int) : 0 ≤ f.cellPlace x y ∧ f.cellPlace x y < f.cells.size := by
  unfold cellPlace
  rw [hwidth, hheight, hcells, Int.fmod_eq_emod_of_nonneg _ (by omega),
    Int.fmod_eq_emod_of_nonneg _ (by omega)]
  unfold screenWidth screenHeight
  omega

theorem place_eq (x y : Int) : f.place x y = (f.cellPlace x y).toNat := by
  have h0 := (cellPlace_bounds hwidth hheight hcells x y).1
  unfold cellPlace at h0
  unfold place fromFront
  rw [if_pos h0]
  rfl

theorem cellPlaces_bounds (x y : Int) (rows : List UInt8) :
    ∀ k ∈ f.cellPlaces x y rows, 0 ≤ k ∧ k < f.cells.size := by
  induction rows generalizing y with
  | nil => exact fun k hk => absurd hk List.not_mem_nil
  | cons row rest ih =>
    intro k hk
    rcases List.mem_append.1 hk with hrow | hrest
    · obtain ⟨col, -, rfl⟩ := List.mem_map.1 hrow
      exact cellPlace_bounds hwidth hheight hcells (x + col) y
    · exact ih (y + 1) k hrest

theorem spritePlaces_eq (x y : Int) (rows : List UInt8) :
    f.spritePlaces x y rows = (f.cellPlaces x y rows).map Int.toNat := by
  induction rows generalizing y with
  | nil => rfl
  | cons row rest ih =>
    rw [spritePlaces, cellPlaces, List.map_append, ih, rowPlaces, List.map_map]
    congr 1
    exact List.map_congr_left fun col _ => place_eq hwidth hheight hcells (x + col) y

theorem drawAt?_eq (x y : Int) (rows : List UInt8) :
    f.drawAt? x y rows = some (f.draw x y rows) := by
  have hflip := flipAllAt?_eq (cellPlaces_bounds hwidth hheight hcells x y rows)
  rw [← spritePlaces_eq hwidth hheight hcells] at hflip
  rw [drawAt?, hflip]
  rfl

end Screen

end Framebuffer

end ChipEight
