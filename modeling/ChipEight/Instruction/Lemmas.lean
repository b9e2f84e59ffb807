import ChipEight.Instruction.Basic

/-!
# Decoding and encoding

Decoding loses nothing (`encode_decode`), and every instruction other than `unknown` is decoded
from the word that encodes it (`decode_encode`). So words and instructions correspond one to one,
apart from the words that stand for nothing.
-/

namespace ChipEight

namespace Arith

theorem ofNibble?_nibble (op : Arith) : ofNibble? op.nibble = some op := by
  cases op <;> rfl

theorem nibble_lt (op : Arith) : op.nibble < 16 := by
  cases op <;> decide

theorem nibble_of_ofNibble? {n : Nat} {op : Arith} (h : ofNibble? n = some op) :
    op.nibble = n := by
  unfold ofNibble? at h
  split at h <;> simp at h <;> subst h <;> rfl

end Arith

namespace Instruction

/-! ## Words from their fields -/

theorem toNat_pack {family rest : Nat} (hf : family < 16) (hr : rest < 4096) :
    (pack family rest).toNat = family * 4096 + rest := by
  simp only [pack, UInt16.toNat_ofNat']
  omega

theorem toNat_packByte {family byte : Nat} (x : Register) (hf : family < 16) (hb : byte < 256) :
    (packByte family x byte).toNat = family * 4096 + (x.val * 256 + byte) :=
  toNat_pack hf (by omega)

theorem toNat_packNibbles {family n : Nat} (x y : Register) (hf : family < 16) (hn : n < 16) :
    (packNibbles family x y n).toNat = family * 4096 + (x.val * 256 + y.val * 16 + n) :=
  toNat_pack hf (by omega)

/-! ## A word is packed from its own fields -/

theorem pack_fields {w : UInt16} {family : Nat} (hf : Word.family w = family) :
    pack family (Word.address w).val = w := by
  have hw := w.toNat_lt
  subst hf
  apply UInt16.toNat_inj.1
  simp only [pack, Word.family, Word.address, UInt16.toNat_ofNat']
  omega

theorem packByte_fields {w : UInt16} {family byte : Nat} (hf : Word.family w = family)
    (hb : w.toNat % 256 = byte) : packByte family (Word.x w) byte = w := by
  have hw := w.toNat_lt
  subst hf hb
  apply UInt16.toNat_inj.1
  simp only [packByte, pack, Word.family, Word.x, UInt16.toNat_ofNat']
  omega

theorem packNibbles_fields {w : UInt16} {family n : Nat} (hf : Word.family w = family)
    (hn : w.toNat % 16 = n) : packNibbles family (Word.x w) (Word.y w) n = w := by
  have hw := w.toNat_lt
  subst hf hn
  apply UInt16.toNat_inj.1
  simp only [packNibbles, pack, Word.family, Word.x, Word.y, UInt16.toNat_ofNat']
  omega

theorem toNat_byte (w : UInt16) : w.toNat % 256 = (Word.byte w).toNat := by
  simp [Word.byte]

/-! ## Decoding loses nothing -/

theorem encode_decodeSpecial {w : UInt16} (hf : Word.family w = 0xF) :
    encode (decodeSpecial w) = w := by
  unfold decodeSpecial
  split
  case h_10 => rfl
  all_goals
    rename_i hb
    exact packByte_fields hf hb

theorem encode_decodeKey {w : UInt16} (hf : Word.family w = 0xE) :
    encode (decodeKey w) = w := by
  unfold decodeKey
  split
  · rename_i hb
    exact packByte_fields hf hb
  · rename_i hb
    exact packByte_fields hf hb
  · rfl

theorem encode_decodeArith {w : UInt16} (hf : Word.family w = 0x8) :
    encode (decodeArith w) = w := by
  unfold decodeArith
  split
  · rename_i op hop
    exact packNibbles_fields hf (Arith.nibble_of_ofNibble? hop).symm
  · rfl

/-- Encoding the instruction that a word stands for gives the word back. -/
theorem encode_decode (w : UInt16) : encode (decode w) = w := by
  have hw := w.toNat_lt
  unfold decode
  split
  case h_1 =>
    split
    · next h => exact h.symm
    · split
      · next h => exact h.symm
      · rfl
  case h_6 hf | h_10 hf =>
    split
    · next hn => exact packNibbles_fields hf (congrArg Fin.val hn)
    · rfl
  case h_9 hf => exact encode_decodeArith hf
  case h_14 hf => exact packNibbles_fields hf rfl
  case h_15 hf => exact encode_decodeKey hf
  case h_16 =>
    have hf : Word.family w < 16 := by
      unfold Word.family
      omega
    refine encode_decodeSpecial ?_
    simp only [imp_false] at *
    omega
  case h_4 hf | h_5 hf | h_7 hf | h_8 hf | h_13 hf => exact packByte_fields hf (toNat_byte w)
  case h_2 hf | h_3 hf | h_11 hf | h_12 hf => exact pack_fields hf

/-- A word stands for no other unknown word than itself. -/
theorem eq_of_decode_unknown {w word : UInt16} (h : decode w = .unknown word) : w = word := by
  have hencode := encode_decode w
  rw [h] at hencode
  exact hencode.symm

/-! ## The fields of a packed word -/

theorem family_pack {family rest : Nat} (hf : family < 16) (hr : rest < 4096) :
    Word.family (pack family rest) = family := by
  simp only [Word.family, toNat_pack hf hr]
  omega

theorem address_pack {family : Nat} (target : Address) (hf : family < 16) :
    Word.address (pack family target.val) = target := by
  apply Fin.ext
  simp only [Word.address, toNat_pack hf target.isLt]
  omega

theorem family_packByte {family byte : Nat} (x : Register) (hf : family < 16) (hb : byte < 256) :
    Word.family (packByte family x byte) = family :=
  family_pack hf (by omega)

theorem x_packByte {family byte : Nat} (x : Register) (hf : family < 16) (hb : byte < 256) :
    Word.x (packByte family x byte) = x := by
  apply Fin.ext
  simp only [Word.x, toNat_packByte x hf hb]
  omega

theorem byte_packByte {family : Nat} (x : Register) (byte : UInt8) (hf : family < 16) :
    Word.byte (packByte family x byte.toNat) = byte := by
  have hb := byte.toNat_lt
  apply UInt8.toNat_inj.1
  simp only [Word.byte, toNat_packByte x hf hb, UInt8.toNat_ofNat']
  omega

theorem toNat_packByte_mod {family byte : Nat} (x : Register) (hf : family < 16)
    (hb : byte < 256) : (packByte family x byte).toNat % 256 = byte := by
  rw [toNat_packByte x hf hb]
  omega

theorem family_packNibbles {family n : Nat} (x y : Register) (hf : family < 16) (hn : n < 16) :
    Word.family (packNibbles family x y n) = family :=
  family_pack hf (by omega)

theorem x_packNibbles {family n : Nat} (x y : Register) (hf : family < 16) (hn : n < 16) :
    Word.x (packNibbles family x y n) = x := by
  apply Fin.ext
  simp only [Word.x, toNat_packNibbles x y hf hn]
  omega

theorem y_packNibbles {family n : Nat} (x y : Register) (hf : family < 16) (hn : n < 16) :
    Word.y (packNibbles family x y n) = y := by
  apply Fin.ext
  simp only [Word.y, toNat_packNibbles x y hf hn]
  omega

theorem toNat_packNibbles_mod {family n : Nat} (x y : Register) (hf : family < 16) (hn : n < 16) :
    (packNibbles family x y n).toNat % 16 = n := by
  rw [toNat_packNibbles x y hf hn]
  omega

theorem n_packNibbles {family : Nat} (x y : Register) (n : Fin 16) (hf : family < 16) :
    Word.n (packNibbles family x y n.val) = n :=
  Fin.ext (toNat_packNibbles_mod x y hf n.isLt)

theorem n_packNibbles_zero {family : Nat} (x y : Register) (hf : family < 16) :
    Word.n (packNibbles family x y 0) = 0 :=
  n_packNibbles x y 0 hf

/-! ## Every instruction is decoded from its word -/

/-- Whether the value is an instruction and not a word that stands for none. -/
def isKnown : Instruction → Bool
  | .unknown _ => false
  | _ => true

/-- An instruction is decoded from the word that encodes it. -/
theorem decode_encode {i : Instruction} (h : i.isKnown) : decode (encode i) = i := by
  cases i with
  | clear | ret => rfl
  | unknown word => simp [isKnown] at h
  | jump target | call target | setIndex target | jumpOffset target =>
    simp [encode, decode, family_pack, address_pack]
  | setByte x byte | addByte x byte | random x byte =>
    have hb : byte.toNat < 256 := byte.toNat_lt
    simp [encode, decode, family_packByte, x_packByte, byte_packByte, hb]
  | draw x y rows =>
    simp [encode, decode, family_packNibbles, x_packNibbles, y_packNibbles, n_packNibbles]
  | arith op x y =>
    simp [encode, decode, decodeArith, family_packNibbles, x_packNibbles, y_packNibbles,
      toNat_packNibbles_mod, op.nibble_lt, Arith.ofNibble?_nibble]
  | skip condition =>
    cases condition with
    | byteEq x byte | byteNe x byte =>
      have hb : byte.toNat < 256 := byte.toNat_lt
      simp [encode, decode, family_packByte, x_packByte, byte_packByte, hb]
    | regEq x y | regNe x y =>
      simp [encode, decode, family_packNibbles, x_packNibbles, y_packNibbles, n_packNibbles_zero]
    | keyDown x | keyUp x =>
      simp [encode, decode, decodeKey, family_packByte, x_packByte, toNat_packByte_mod]
  | readDelay x | awaitKey x | setDelay x | setSound x | addIndex x | glyph x | decimal x
  | store x | load x =>
    simp [encode, decode, decodeSpecial, family_packByte, x_packByte, toNat_packByte_mod]

end Instruction

end ChipEight
