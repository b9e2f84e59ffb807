import ChipEight.Proofs.Display.Sprites
import ChipEight.Proofs.Machine.Invariant
import ChipEight.Proofs.Places

/-!
# A sprite that is drawn twice

**Theorem (`draw_twice`).** Let a machine draw a sprite, and later the same one at the same place on
the screen that the first drawing left. Then the cells are those from before the first drawing. The
first drawing sets the flag exactly if a set bit of the sprite lies over a lit cell, and the second
one exactly if a set bit lies over a cell that was dark before the first. So one of them sets the
flag exactly if the sprite has a set bit at all; it need not be the second. Nothing but the flag,
the screen and the program counter changes.

Fifteen rows of eight bits fit on the screen wherever they stand, so that no sprite wraps onto
itself. The registers of the place are read before the flag is written.
-/

namespace ChipEight.Machine

open Framebuffer (IsGrid SetBit)

/-! ## One drawing -/

/-- The rows of the sprite that the index register points at. -/
def spriteAt (m : Machine) (rows : Fin 16) : List UInt8 :=
  (List.range rows.val).map fun k => m.memory.byteAt (m.registers.index.toNat + k)

/-- What drawing makes of the screen, and whether it collides. -/
def drawing (m : Machine) (x y : Register) (rows : Fin 16) : Bool × Framebuffer :=
  m.screen.draw (m.registers.get x).toNat (m.registers.get y).toNat (m.spriteAt rows)

/-- Whether the cell is lit that lies under a bit of a sprite. -/
def litUnder (m : Machine) (x y : Register) (row col : Nat) : Bool :=
  m.screen.litUnder (m.registers.get x).toNat (m.registers.get y).toNat row col

/-- Two machines draw the same sprite at the same place on the same cells. -/
structure SameSprite (m m' : Machine) (x y : Register) (rows : Fin 16) : Prop where
  x_eq : m'.registers.get x = m.registers.get x
  y_eq : m'.registers.get y = m.registers.get y
  index_eq : m'.registers.index = m.registers.index
  sprite_eq : m'.spriteAt rows = m.spriteAt rows
  cells_eq : m'.screen.cells = m.screen.cells

/-- Nothing that a program can look at changes but the flag and the program counter. -/
structure ChangesFlagOnly (m m' : Machine) : Prop where
  register_eq : ∀ r, r ≠ flagRegister → m'.registers.get r = m.registers.get r
  index_eq : m'.registers.index = m.registers.index
  stack_eq : m'.registers.stack = m.registers.stack
  memory_eq : m'.memory = m.memory

theorem length_spriteAt (m : Machine) (rows : Fin 16) : (m.spriteAt rows).length = rows.val := by
  rw [spriteAt, List.length_map, List.length_range]

theorem Sound.isGrid {m : Machine} (h : m.Sound) : m.screen.IsGrid screenWidth screenHeight :=
  ⟨h.width_eq, h.height_eq, h.cells_size⟩

theorem Sound.block_eq_spriteAt {m : Machine} (h : m.Sound) {rows : Fin 16}
    (hrange : m.registers.index + rows.val ≤ memorySize) :
    m.memory.block m.registers.index rows.val = m.spriteAt rows := by
  rw [← h.bytes_size] at hrange
  refine List.ext_getElem? fun k => ?_
  rw [Memory.getElem?_block h.index_nonneg hrange, spriteAt, List.getElem?_map]
  split
  · next hk => rw [List.getElem?_range hk, Option.map_some]
  · next hk =>
    rw [List.getElem?_eq_none (by rw [List.length_range]; omega)]
    rfl

/-- What a cycle that draws makes of a machine. -/
theorem Sound.draws {m m' : Machine} (h : m.Sound) {x y : Register} {rows : Fin 16}
    (hcycle : cycle m = .ok (some (.draw x y rows)) m') :
    m'.screen = (m.drawing x y rows).2 ∧ m'.memory = m.memory ∧
      m'.registers =
        { m.registers.set flagRegister (if (m.drawing x y rows).1 then 1 else 0) with
          pc := m.registers.pc + 2 } := by
  obtain ⟨word, -, -, hdecode, hfree, rfl⟩ := ((cycle_ok_iff h.memory_size).1 hcycle).of_some
  have hrange : m.registers.index + rows.val ≤ memorySize := by
    have hwork : m.rangeFault? rows.val = none := (fault?_eq_none.1 hfree).2
    rw [← h.memory_size]
    exact (Memory.refusal?_eq_none.1 hwork).2
  have heffect : m.effect (.draw x y rows) = m.drawn x y (m.spriteAt rows) := by
    rw [Machine.effect, h.block_eq_spriteAt hrange]
  rw [Machine.afterWord, hdecode, heffect]
  exact ⟨rfl, rfl, rfl⟩

theorem Sound.changesFlagOnly {m m' : Machine} (h : m.Sound) {x y : Register} {rows : Fin 16}
    (hcycle : cycle m = .ok (some (.draw x y rows)) m') : ChangesFlagOnly m m' := by
  obtain ⟨-, hmemory, hregisters⟩ := h.draws hcycle
  refine ⟨fun r hr => ?_, by rw [hregisters]; rfl, by rw [hregisters]; rfl, hmemory⟩
  rw [hregisters]
  exact Registers.get_set_of_ne m.registers _ (Ne.symm hr)

theorem Sound.flag_eq_one_iff {m m' : Machine} (h : m.Sound) {x y : Register} {rows : Fin 16}
    (hcycle : cycle m = .ok (some (.draw x y rows)) m') :
    m'.registers.get flagRegister = 1 ↔ (m.drawing x y rows).1 = true := by
  have hflag : m'.registers.get flagRegister = if (m.drawing x y rows).1 then 1 else 0 := by
    rw [(h.draws hcycle).2.2]
    exact Registers.get_set_self m.registers flagRegister _
  rw [hflag]
  cases (m.drawing x y rows).1 <;> decide

/-! ## Two drawings -/

/-- The second drawing of a sprite is on the screen that the first one left. -/
theorem SameSprite.drawing_eq {m first later : Machine} {x y : Register} {rows : Fin 16}
    (hsame : SameSprite first later x y rows) (h : m.Sound) (hfirst : first.Sound)
    (hlater : later.Sound) (hx : x ≠ flagRegister) (hy : y ≠ flagRegister)
    (hcycle : cycle m = .ok (some (.draw x y rows)) first) :
    later.drawing x y rows =
      (m.drawing x y rows).2.draw (m.registers.get x).toNat (m.registers.get y).toNat
        (m.spriteAt rows) := by
  have hkept := h.changesFlagOnly hcycle
  have hsprite : first.spriteAt rows = m.spriteAt rows := by
    rw [spriteAt, spriteAt, hkept.memory_eq, hkept.index_eq]
  rw [drawing, hsame.x_eq, hsame.y_eq, hsame.sprite_eq, hkept.register_eq x hx,
    hkept.register_eq y hy, hsprite, ← (h.draws hcycle).1]
  exact Framebuffer.draw_congr (hlater.width_eq.trans hfirst.width_eq.symm)
    (hlater.height_eq.trans hfirst.height_eq.symm) hsame.cells_eq _ _ _

/-- **A sprite that is drawn twice.** -/
theorem draw_twice {m first second : Machine} {x y : Register} {rows : Fin 16} {calls : List Call}
    (hm : m.Reachable) (hx : x ≠ flagRegister) (hy : y ≠ flagRegister)
    (hfirst : cycle m = .ok (some (.draw x y rows)) first)
    (hsame : SameSprite first (first.afterAll calls) x y rows)
    (hsecond : cycle (first.afterAll calls) = .ok (some (.draw x y rows)) second) :
    second.screen.cells = m.screen.cells ∧
      (first.registers.get flagRegister = 1 ↔
        ∃ row col, SetBit (m.spriteAt rows) row col ∧ m.litUnder x y row col = true) ∧
      (second.registers.get flagRegister = 1 ↔
        ∃ row col, SetBit (m.spriteAt rows) row col ∧ m.litUnder x y row col = false) ∧
      (first.registers.get flagRegister = 1 ∨ second.registers.get flagRegister = 1 ↔
        ∃ row col, SetBit (m.spriteAt rows) row col) ∧
      ChangesFlagOnly m first ∧ ChangesFlagOnly (first.afterAll calls) second := by
  have h : m.Sound := hm.sound
  have hnext : first.Sound := h.cycles ((cycle_ok_iff h.memory_size).1 hfirst)
  have hlater : (first.afterAll calls).Sound := hnext.afterAll calls
  have hdrawing := hsame.drawing_eq h hnext hlater hx hy hfirst
  have hfits : (m.spriteAt rows).length ≤ screenHeight := by
    have hrows := rows.isLt
    rw [length_spriteAt]
    unfold screenHeight
    omega
  have hhits : first.registers.get flagRegister = 1 ↔
      ∃ row col, SetBit (m.spriteAt rows) row col ∧ m.litUnder x y row col = true :=
    (h.flag_eq_one_iff hfirst).trans
      (Framebuffer.draw_hits_iff_litUnder h.isGrid (by decide) (by decide) hfits)
  -- The second drawing starts from the cells that the first one left.
  have hagain : second.registers.get flagRegister = 1 ↔
      ∃ row col, SetBit (m.spriteAt rows) row col ∧ m.litUnder x y row col = false := by
    rw [hlater.flag_eq_one_iff hsecond, hdrawing]
    exact Framebuffer.draw_draw_hits_iff h.isGrid (by decide) (by decide) hfits
  have heither : first.registers.get flagRegister = 1 ∨ second.registers.get flagRegister = 1 ↔
      ∃ row col, SetBit (m.spriteAt rows) row col := by
    rw [hhits, hagain]
    constructor
    · rintro (⟨row, col, hbit, -⟩ | ⟨row, col, hbit, -⟩) <;> exact ⟨row, col, hbit⟩
    · rintro ⟨row, col, hbit⟩
      -- A cell under a set bit is lit before the first drawing or before the second.
      cases hlit : m.litUnder x y row col with
      | true => exact .inl ⟨row, col, hbit, hlit⟩
      | false => exact .inr ⟨row, col, hbit, hlit⟩
  refine ⟨?_, hhits, hagain, heither, h.changesFlagOnly hfirst, hlater.changesFlagOnly hsecond⟩
  rw [(hlater.draws hsecond).1, hdrawing]
  exact Framebuffer.cells_draw_draw h.isGrid (by decide) (by decide) _ _ _

/-- A machine with a program that draws the digit zero twice in the corner of the screen. -/
def zeroTwice : Machine :=
  (fresh (.ofBytes []) {}).afterAll [.load [0xD0, 0x15, 0xD0, 0x15] programBase]

/-- The machine after its screen was shown and its timers ticked. -/
def shown (m : Machine) : Machine :=
  { m with screen := m.screen.consume.2, timers := m.timers.tick }

theorem afterAll_consume_tick (m : Machine) : m.afterAll [.consume, .tick] = m.shown := rfl

theorem sameSprite_shown (m : Machine) (x y : Register) (rows : Fin 16) :
    SameSprite m m.shown x y rows := ⟨rfl, rfl, rfl, rfl, rfl⟩

/-- Between the drawings the screen is shown and the timers tick. The second drawing hits what the
first one lit. -/
theorem draw_twice_zero :
    ∃ first second, zeroTwice.Reachable ∧ (0 : Register) ≠ flagRegister ∧
      (1 : Register) ≠ flagRegister ∧ cycle zeroTwice = .ok (some (.draw 0 1 5)) first ∧
      SameSprite first (first.afterAll [.consume, .tick]) 0 1 5 ∧
      cycle (first.afterAll [.consume, .tick]) = .ok (some (.draw 0 1 5)) second ∧
      second.screen.cells = zeroTwice.screen.cells ∧
      first.registers.get flagRegister ≠ 1 ∧ second.registers.get flagRegister = 1 := by
  let first := zeroTwice.afterWord 0xD015
  have hm : zeroTwice.Reachable :=
    ⟨.ofBytes [], {}, [.load [0xD0, 0x15, 0xD0, 0x15] programBase], rfl⟩
  have hprogram : zeroTwice.memory =
      (Memory.blank memorySize).loadFont.put programBase [0xD0, 0x15, 0xD0, 0x15] := rfl
  have hdecode : Instruction.decode 0xD015 = .draw 0 1 5 := by decide
  have hone : Cycles zeroTwice (some (Instruction.decode 0xD015)) first :=
    .of_program (k := 0) hprogram (by decide) rfl rfl rfl rfl (by decide)
  have htwo : Cycles first.shown (some (Instruction.decode 0xD015))
      (first.shown.afterWord 0xD015) :=
    .of_program (k := 2) hprogram (by decide) rfl rfl rfl rfl (by decide)
  rw [hdecode] at hone htwo
  have hfirst : cycle zeroTwice = .ok (some (.draw 0 1 5)) first := hone.cycle_eq
  have hsecond : cycle (first.afterAll [.consume, .tick]) =
      .ok (some (.draw 0 1 5)) (first.shown.afterWord 0xD015) := by
    rw [afterAll_consume_tick]
    exact htwo.cycle_eq
  have hsame : SameSprite first (first.afterAll [.consume, .tick]) 0 1 5 := by
    rw [afterAll_consume_tick]
    exact sameSprite_shown first 0 1 5
  obtain ⟨hcells, hhits, -, heither, -⟩ :=
    draw_twice hm (by decide) (by decide) hfirst hsame hsecond
  have hdark : first.registers.get flagRegister ≠ 1 := by
    rw [Ne, hhits]
    rintro ⟨row, col, -, hlit⟩
    have hscreen : zeroTwice.screen = Framebuffer.blank screenWidth screenHeight := rfl
    rw [litUnder, Framebuffer.litUnder, hscreen, Framebuffer.lit_blank] at hlit
    cases hlit
  have hbyte : zeroTwice.memory.byteAt 0 = 0xF0 := by
    rw [hprogram, Memory.byteAt_put 0 (by rw [Memory.size_bytes_loadFont_blank]; decide),
      if_neg (by decide), Memory.byteAt_loadFont_of_lt (by decide)]
    rfl
  have hbit : SetBit (zeroTwice.spriteAt 5) 0 0 :=
    ⟨0xF0, congrArg some hbyte, by decide, by decide⟩
  exact ⟨first, _, hm, by decide, by decide, hfirst, hsame, hsecond, hcells, hdark,
    (heither.2 ⟨0, 0, hbit⟩).resolve_left hdark⟩

end ChipEight.Machine
