import ChipEight.Memory.Basic

/-!
# The font

The glyphs of the sixteen hexadecimal digits. A glyph is five rows of one byte each, and the high
nibble of a row is what the glyph shows. The glyphs stand at the start of memory in order, so the
one of digit `d` begins at `5 * d`.
-/

namespace ChipEight

/-- The number of bytes of a glyph. -/
def glyphSize : Nat := 5

/-- The bytes of all glyphs, from `0` to `F`. -/
def font : List UInt8 := [
  0xF0, 0x90, 0x90, 0x90, 0xF0,
  0x20, 0x60, 0x20, 0x20, 0x70,
  0xF0, 0x10, 0xF0, 0x80, 0xF0,
  0xF0, 0x10, 0xF0, 0x10, 0xF0,
  0x90, 0x90, 0xF0, 0x10, 0x10,
  0xF0, 0x80, 0xF0, 0x10, 0xF0,
  0xF0, 0x80, 0xF0, 0x90, 0xF0,
  0xF0, 0x10, 0x20, 0x40, 0x40,
  0xF0, 0x90, 0xF0, 0x90, 0xF0,
  0xF0, 0x90, 0xF0, 0x10, 0xF0,
  0xF0, 0x90, 0xF0, 0x90, 0x90,
  0xE0, 0x90, 0xE0, 0x90, 0xE0,
  0xF0, 0x80, 0x80, 0x80, 0xF0,
  0xE0, 0x90, 0x90, 0x90, 0xE0,
  0xF0, 0x80, 0xF0, 0x80, 0xF0,
  0xF0, 0x80, 0xF0, 0x80, 0x80]

theorem length_font : font.length = 16 * glyphSize := rfl

/-- The address of the glyph of a digit. -/
def glyphAddress (digit : Nat) : Nat := digit * glyphSize

/-- Put the font in place of the first bytes of the store. A store with fewer bytes than the font
comes to hold the whole font, while its bounds stay what they were. -/
def Memory.loadFont (m : Memory) : Memory :=
  { m with bytes := font.toArray ++ m.bytes.extract font.length m.bytes.size }

end ChipEight
