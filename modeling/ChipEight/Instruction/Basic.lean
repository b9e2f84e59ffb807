/-!
# Instructions

The instruction set as a type. A word of sixteen bits is read in nibbles: the highest one is its
family, the others are `x`, `y` and `n`, and the low byte and the low twelve bits are the operands
`byte` and `address`. `Instruction.decode` maps every word to exactly one instruction, and a word
that stands for none becomes `unknown`, so nothing is lost: `Instruction.encode` gives the word
back (`encode_decode`, in `ChipEight.Instruction.Lemmas`).
-/

namespace ChipEight

/-- One of the sixteen general registers, `V0` to `VF`. -/
abbrev Register := Fin 16

/-- The register `V0`. -/
def firstRegister : Register := 0

/-- The register that holds the carry, borrow, shift and collision flag. -/
def flagRegister : Register := 15

/-- A twelve-bit address, as jumps and index loads hold it. -/
abbrev Address := Fin 4096

/-! ## The fields of a word -/

namespace Word

/-- The highest nibble. -/
def family (w : UInt16) : Nat := w.toNat / 4096

/-- The second nibble, the first register operand. -/
def x (w : UInt16) : Register := ⟨w.toNat / 256 % 16, Nat.mod_lt _ (by decide)⟩

/-- The third nibble, the second register operand. -/
def y (w : UInt16) : Register := ⟨w.toNat / 16 % 16, Nat.mod_lt _ (by decide)⟩

/-- The lowest nibble. -/
def n (w : UInt16) : Fin 16 := ⟨w.toNat % 16, Nat.mod_lt _ (by decide)⟩

/-- The low byte. -/
def byte (w : UInt16) : UInt8 := UInt8.ofNat w.toNat

/-- The low twelve bits. -/
def address (w : UInt16) : Address := ⟨w.toNat % 4096, Nat.mod_lt _ (by decide)⟩

/-- The word of two bytes, the high one first. -/
def ofBytes (high low : UInt8) : UInt16 := UInt16.ofNat (high.toNat * 256 + low.toNat)

/-- The two bytes of a word, the high one first. -/
def toBytes (w : UInt16) : List UInt8 := [UInt8.ofNat (w.toNat / 256), UInt8.ofNat w.toNat]

end Word

/-! ## The instruction set -/

/-- What a skip instruction tests. -/
inductive Condition where
  /-- The register holds the byte. -/
  | byteEq (x : Register) (byte : UInt8)
  /-- The register holds another byte. -/
  | byteNe (x : Register) (byte : UInt8)
  /-- The two registers agree. -/
  | regEq (x y : Register)
  /-- The two registers differ. -/
  | regNe (x y : Register)
  /-- The key named by the low nibble of the register is held. -/
  | keyDown (x : Register)
  /-- That key is not held. -/
  | keyUp (x : Register)
  deriving Repr, DecidableEq

/-- The operations between two registers, which the lowest nibble of family 8 selects. -/
inductive Arith where
  | copy
  | or
  | and
  | xor
  | add
  | sub
  | shr
  | subn
  | shl
  deriving Repr, DecidableEq

/-- One instruction with its operands. -/
inductive Instruction where
  /-- Clear the screen. -/
  | clear
  /-- Return from a subroutine. -/
  | ret
  /-- Go to `target`. -/
  | jump (target : Address)
  /-- Call the subroutine at `target`. -/
  | call (target : Address)
  /-- Go to `target` plus `V0`. -/
  | jumpOffset (target : Address)
  /-- Step over the next instruction if the condition holds. -/
  | skip (condition : Condition)
  /-- Put a byte into a register. -/
  | setByte (x : Register) (byte : UInt8)
  /-- Add a byte to a register, without a flag. -/
  | addByte (x : Register) (byte : UInt8)
  /-- Combine `Vx` with `Vy` into `Vx`. -/
  | arith (op : Arith) (x y : Register)
  /-- Put an address into the index register. -/
  | setIndex (target : Address)
  /-- Put a masked random byte into a register. -/
  | random (x : Register) (mask : UInt8)
  /-- Draw `rows` bytes from the index register on at `(Vx, Vy)`. -/
  | draw (x y : Register) (rows : Fin 16)
  /-- Read the delay timer. -/
  | readDelay (x : Register)
  /-- Wait for a key press and keep its code. -/
  | awaitKey (x : Register)
  /-- Set the delay timer. -/
  | setDelay (x : Register)
  /-- Set the sound timer. -/
  | setSound (x : Register)
  /-- Add a register to the index register. -/
  | addIndex (x : Register)
  /-- Point the index register at the glyph of a hexadecimal digit. -/
  | glyph (x : Register)
  /-- Store the three decimal digits of a register. -/
  | decimal (x : Register)
  /-- Store `V0` to `Vx`. -/
  | store (x : Register)
  /-- Load `V0` to `Vx`. -/
  | load (x : Register)
  /-- A word that stands for no instruction. -/
  | unknown (word : UInt16)
  deriving Repr, DecidableEq

namespace Arith

/-- The operation that a lowest nibble selects in family 8. -/
def ofNibble? : Nat → Option Arith
  | 0x0 => some copy
  | 0x1 => some or
  | 0x2 => some and
  | 0x3 => some xor
  | 0x4 => some add
  | 0x5 => some sub
  | 0x6 => some shr
  | 0x7 => some subn
  | 0xE => some shl
  | _ => none

/-- The nibble that selects an operation. -/
def nibble : Arith → Nat
  | copy => 0x0
  | or => 0x1
  | and => 0x2
  | xor => 0x3
  | add => 0x4
  | sub => 0x5
  | shr => 0x6
  | subn => 0x7
  | shl => 0xE

end Arith

namespace Instruction

/-! ## Decoding -/

/-- Family F: one register, and the low byte selects the operation. -/
def decodeSpecial (w : UInt16) : Instruction :=
  match w.toNat % 256 with
  | 0x07 => .readDelay (Word.x w)
  | 0x0A => .awaitKey (Word.x w)
  | 0x15 => .setDelay (Word.x w)
  | 0x18 => .setSound (Word.x w)
  | 0x1E => .addIndex (Word.x w)
  | 0x29 => .glyph (Word.x w)
  | 0x33 => .decimal (Word.x w)
  | 0x55 => .store (Word.x w)
  | 0x65 => .load (Word.x w)
  | _ => .unknown w

/-- Family E: skips on a key, which the low byte selects. -/
def decodeKey (w : UInt16) : Instruction :=
  match w.toNat % 256 with
  | 0x9E => .skip (.keyDown (Word.x w))
  | 0xA1 => .skip (.keyUp (Word.x w))
  | _ => .unknown w

/-- Family 8: an operation between two registers. -/
def decodeArith (w : UInt16) : Instruction :=
  match Arith.ofNibble? (w.toNat % 16) with
  | some op => .arith op (Word.x w) (Word.y w)
  | none => .unknown w

/-- The instruction that a word stands for. -/
def decode (w : UInt16) : Instruction :=
  match Word.family w with
  | 0x0 => if w = 0x00E0 then .clear else if w = 0x00EE then .ret else .unknown w
  | 0x1 => .jump (Word.address w)
  | 0x2 => .call (Word.address w)
  | 0x3 => .skip (.byteEq (Word.x w) (Word.byte w))
  | 0x4 => .skip (.byteNe (Word.x w) (Word.byte w))
  | 0x5 => if Word.n w = 0 then .skip (.regEq (Word.x w) (Word.y w)) else .unknown w
  | 0x6 => .setByte (Word.x w) (Word.byte w)
  | 0x7 => .addByte (Word.x w) (Word.byte w)
  | 0x8 => decodeArith w
  | 0x9 => if Word.n w = 0 then .skip (.regNe (Word.x w) (Word.y w)) else .unknown w
  | 0xA => .setIndex (Word.address w)
  | 0xB => .jumpOffset (Word.address w)
  | 0xC => .random (Word.x w) (Word.byte w)
  | 0xD => .draw (Word.x w) (Word.y w) (Word.n w)
  | 0xE => decodeKey w
  | _ => decodeSpecial w

/-! ## Encoding -/

/-- A word of a family and twelve bits. -/
def pack (family : Nat) (rest : Nat) : UInt16 := UInt16.ofNat (family * 4096 + rest)

/-- A word of a family, a register and a byte. -/
def packByte (family : Nat) (x : Register) (byte : Nat) : UInt16 :=
  pack family (x.val * 256 + byte)

/-- A word of a family and three nibbles. -/
def packNibbles (family : Nat) (x y : Register) (n : Nat) : UInt16 :=
  pack family (x.val * 256 + y.val * 16 + n)

/-- The word of an instruction. -/
def encode : Instruction → UInt16
  | .clear => 0x00E0
  | .ret => 0x00EE
  | .jump target => pack 0x1 target.val
  | .call target => pack 0x2 target.val
  | .skip (.byteEq x byte) => packByte 0x3 x byte.toNat
  | .skip (.byteNe x byte) => packByte 0x4 x byte.toNat
  | .skip (.regEq x y) => packNibbles 0x5 x y 0
  | .setByte x byte => packByte 0x6 x byte.toNat
  | .addByte x byte => packByte 0x7 x byte.toNat
  | .arith op x y => packNibbles 0x8 x y op.nibble
  | .skip (.regNe x y) => packNibbles 0x9 x y 0
  | .setIndex target => pack 0xA target.val
  | .jumpOffset target => pack 0xB target.val
  | .random x mask => packByte 0xC x mask.toNat
  | .draw x y rows => packNibbles 0xD x y rows.val
  | .skip (.keyDown x) => packByte 0xE x 0x9E
  | .skip (.keyUp x) => packByte 0xE x 0xA1
  | .readDelay x => packByte 0xF x 0x07
  | .awaitKey x => packByte 0xF x 0x0A
  | .setDelay x => packByte 0xF x 0x15
  | .setSound x => packByte 0xF x 0x18
  | .addIndex x => packByte 0xF x 0x1E
  | .glyph x => packByte 0xF x 0x29
  | .decimal x => packByte 0xF x 0x33
  | .store x => packByte 0xF x 0x55
  | .load x => packByte 0xF x 0x65
  | .unknown word => word

end Instruction

end ChipEight
