import ChipEight.Memory.Font

/-!
# Ranges of memory

An access to a range of memory is a check and then a plain look at the bytes, or a plain change of
them. Here the two are told apart: `refusal?` is the fault of the check, `word` and `block` are the
bytes that are read, and `put` is the store that is left after a write. A write changes the bytes of
its range and no others (`byteAt_put`), and never the number of bytes.
-/

namespace ChipEight

/-- An integer that is a word wraps to itself. -/
theorem toNat_wrapWord {value : Int} (h0 : 0 ≤ value) (h1 : value < 0x10000) :
    (wrapWord value).toNat = value.toNat := by
  unfold wrapWord UInt16.ofInt
  rw [UInt16.toNat_ofNat']
  omega

theorem toNat_wrapByte (value : Int) : ((wrapByte value).toNat : Int) = value % 256 := by
  unfold wrapByte UInt8.ofInt
  rw [UInt8.toNat_ofNat']
  omega

/-- A byte wraps to itself. -/
theorem wrapByte_toNat (byte : UInt8) : wrapByte byte.toNat = byte := by
  have hbyte := toNat_wrapByte byte.toNat
  have hlt := byte.toNat_lt
  exact UInt8.toNat_inj.1 (by omega)

theorem map_wrapByte_toNat (bytes : List UInt8) :
    (bytes.map fun byte => (byte.toNat : Int)).map wrapByte = bytes := by
  rw [List.map_map]
  exact (List.map_congr_left fun byte _ => wrapByte_toNat byte).trans (List.map_id bytes)

/-! ## Overwriting -/

theorem getD_setIfInBounds (bytes : Array UInt8) {start : Nat} (value : UInt8) (k : Nat)
    (h : start < bytes.size) :
    (bytes.setIfInBounds start value).getD k 0 = if start = k then value else bytes.getD k 0 := by
  simp only [Array.getD_eq_getD_getElem?, Array.getElem?_setIfInBounds, if_pos h]
  split <;> rfl

theorem getD_overwrite (bytes : Array UInt8) (start : Nat) (values : List UInt8) (k : Nat)
    (h : start + values.length ≤ bytes.size) :
    (overwrite bytes start values).getD k 0 =
      if start ≤ k then values.getD (k - start) (bytes.getD k 0) else bytes.getD k 0 := by
  induction values generalizing bytes start with
  | nil => simp [overwrite]
  | cons value rest ih =>
    rw [List.length_cons] at h
    have hsize : start + 1 + rest.length ≤ (bytes.setIfInBounds start value).size := by
      rw [Array.size_setIfInBounds]
      omega
    rw [overwrite, ih _ _ hsize, getD_setIfInBounds bytes value k (by omega)]
    rcases Nat.lt_trichotomy k start with hlt | rfl | hgt
    · rw [if_neg (by omega), if_neg (by omega), if_neg (by omega)]
    · rw [if_neg (by omega), if_pos rfl, if_pos (Nat.le_refl k), Nat.sub_self,
        List.getD_cons_zero]
    · obtain ⟨d, hd⟩ : ∃ d, k - start = d + 1 := ⟨k - start - 1, by omega⟩
      have hd' : k - (start + 1) = d := by omega
      rw [if_pos (by omega), if_neg (by omega), if_pos (by omega), hd, hd', List.getD_cons_succ]

namespace Memory

/-- A store is its bounds and its bytes. -/
theorem ext_byteAt {mem mem' : Memory} (hsize : mem.size = mem'.size)
    (hbytes : mem.bytes.size = mem'.bytes.size) (h : ∀ k, mem.byteAt k = mem'.byteAt k) :
    mem = mem' := by
  have hall : mem.bytes = mem'.bytes := by
    refine Array.ext hbytes fun k hk hk' => ?_
    have hk : mem.bytes.getD k 0 = mem'.bytes.getD k 0 := h k
    rwa [Array.getD_eq_getD_getElem?, Array.getD_eq_getD_getElem?, Array.getElem?_eq_getElem,
      Array.getElem?_eq_getElem, Option.getD_some, Option.getD_some] at hk
  cases mem
  cases mem'
  cases hsize
  cases hall
  rfl

/-! ## Checks -/

/-- The fault of an access that is refused. -/
def refusal? (mem : Memory) (start length : Int) : Option Fault :=
  match mem.check start length with
  | .ok _ => none
  | .error fault => some fault

theorem refusal?_eq_none {mem : Memory} {start length : Int} :
    mem.refusal? start length = none ↔ 0 ≤ start ∧ start + length ≤ mem.size := by
  unfold refusal? check
  by_cases h : start < 0 ∨ mem.size < start + length
  · simp only [if_pos h, reduceCtorEq, false_iff]
    omega
  · simp only [if_neg h, true_iff]
    omega

/-- The fault of an access names an address outside the store. -/
theorem refusal?_eq_some {mem : Memory} {start length : Int} {fault : Fault}
    (h : mem.refusal? start length = some fault) :
    ∃ address, fault = .memory address ∧ (address < 0 ∨ mem.size ≤ address) := by
  unfold refusal? check at h
  by_cases hrange : start < 0 ∨ mem.size < start + length
  · simp only [if_pos hrange, Option.some.injEq] at h
    refine ⟨_, h.symm, ?_⟩
    split
    · assumption
    · exact .inr (Int.le_refl _)
  · simp only [if_neg hrange, reduceCtorEq] at h

/-! ## Reading -/

/-- The word at an address that was checked. -/
def word (mem : Memory) (address : Int) : UInt16 :=
  Word.ofBytes (mem.byteAt address.toNat) (mem.byteAt (address.toNat + 1))

/-- The bytes of a range that was checked. -/
def block (mem : Memory) (start length : Int) : List UInt8 :=
  (mem.bytes.extract start.toNat (signedEnd mem.bytes.size (start + length))).toList

theorem readWord_eq (mem : Memory) (address : Int) :
    mem.readWord address =
      match mem.refusal? address 2 with
      | some fault => .error fault
      | none => .ok (mem.word address) := by
  unfold readWord refusal?
  cases h : mem.check address 2 <;> rfl

theorem readWord_eq_ok {mem : Memory} {address : Int} {word : UInt16} :
    mem.readWord address = .ok word ↔
      (0 ≤ address ∧ address + 2 ≤ mem.size) ∧ mem.word address = word := by
  rw [readWord_eq, ← refusal?_eq_none]
  cases h : mem.refusal? address 2 <;> simp

theorem readBlock_eq (mem : Memory) (start length : Int) :
    mem.readBlock start length =
      match mem.refusal? start length with
      | some fault => .error fault
      | none => .ok (mem.block start length) := by
  unfold readBlock refusal?
  cases h : mem.check start length <;> rfl

/-! ## Writing -/

/-- The store after bytes were put over a range that was checked. -/
def put (mem : Memory) (start : Int) (values : List UInt8) : Memory :=
  { mem with bytes := overwrite mem.bytes start.toNat values }

@[simp]
theorem size_put (mem : Memory) (start : Int) (values : List UInt8) :
    (mem.put start values).size = mem.size := rfl

@[simp]
theorem size_bytes_put (mem : Memory) (start : Int) (values : List UInt8) :
    (mem.put start values).bytes.size = mem.bytes.size :=
  size_overwrite mem.bytes start.toNat values

theorem writeBlock_eq (mem : Memory) (start : Int) (values : List UInt8) :
    mem.writeBlock start values =
      match mem.refusal? start values.length with
      | some fault => .error fault
      | none => .ok (mem.put start values) := by
  unfold writeBlock refusal?
  cases h : mem.check start values.length <;> rfl

/-- A byte of the written range is the byte written there, and any other is what it was. -/
theorem byteAt_put {mem : Memory} {start : Int} {values : List UInt8} (k : Nat)
    (h : start.toNat + values.length ≤ mem.bytes.size) :
    (mem.put start values).byteAt k =
      if start.toNat ≤ k then values.getD (k - start.toNat) (mem.byteAt k) else mem.byteAt k :=
  getD_overwrite mem.bytes start.toNat values k h

section Put

variable {mem : Memory} {start : Int} {values : List UInt8} {k : Nat}
  (hrange : start.toNat + values.length ≤ mem.bytes.size)

include hrange

theorem byteAt_put_of_inside (h : k < values.length) :
    (mem.put start values).byteAt (start.toNat + k) = values[k] := by
  rw [byteAt_put _ hrange, if_pos (Nat.le_add_right _ _), Nat.add_sub_cancel_left,
    List.getD_eq_getElem?_getD, List.getElem?_eq_getElem h, Option.getD_some]

theorem byteAt_put_of_outside (h : k < start.toNat ∨ start.toNat + values.length ≤ k) :
    (mem.put start values).byteAt k = mem.byteAt k := by
  rw [byteAt_put k hrange]
  split
  · rw [List.getD_eq_getElem?_getD, List.getElem?_eq_none (by omega), Option.getD_none]
  · rfl

/-- What is written elsewhere does not change a word. -/
theorem readWord_put_of_outside {address : Int} {word : UInt16}
    (hout : address.toNat + 2 ≤ start.toNat ∨ start.toNat + values.length ≤ address.toNat)
    (h : mem.readWord address = .ok word) : (mem.put start values).readWord address = .ok word := by
  obtain ⟨hbounds, hword⟩ := readWord_eq_ok.1 h
  refine readWord_eq_ok.2 ⟨hbounds, ?_⟩
  rw [Memory.word, byteAt_put_of_outside hrange (by omega),
    byteAt_put_of_outside hrange (by omega)]
  exact hword

end Put

/-- In a range that was written stands the word of any two bytes of it. -/
theorem readWord_put_drop {mem : Memory} {start : Int} {values rest : List UInt8} {k : Nat}
    {high low : UInt8} (hsize : mem.bytes.size = mem.size) (h0 : 0 ≤ start)
    (h1 : start + values.length ≤ mem.size) (hk : values.drop k = high :: low :: rest) :
    (mem.put start values).readWord (start + k) = .ok (Word.ofBytes high low) := by
  have hlength : values.length = k + (rest.length + 2) := by
    have hdrop := congrArg List.length hk
    simp only [List.length_drop, List.length_cons] at hdrop
    omega
  have hbyte (d : Nat) (b : UInt8) (hd : (high :: low :: rest)[d]? = some b) :
      (mem.put start values).byteAt (start.toNat + k + d) = b := by
    rw [← hk, List.getElem?_drop] at hd
    obtain ⟨hlt, rfl⟩ := List.getElem?_eq_some_iff.1 hd
    rw [Nat.add_assoc]
    exact byteAt_put_of_inside (by omega) hlt
  refine readWord_eq_ok.2 ⟨⟨by omega, by rw [size_put]; omega⟩, ?_⟩
  have hplace : (start + k).toNat = start.toNat + k := by omega
  rw [word, hplace, hbyte 1 low rfl]
  exact congrArg (Word.ofBytes · low) (hbyte 0 high rfl)

/-- Where two bytes were written stands their word. -/
theorem readWord_put {mem : Memory} {start : Int} {high low : UInt8}
    (hsize : mem.bytes.size = mem.size) (h0 : 0 ≤ start) (h1 : start + 2 ≤ mem.size) :
    (mem.put start [high, low]).readWord start = .ok (Word.ofBytes high low) := by
  have hrange : start + [high, low].length ≤ mem.size := h1
  have hword := readWord_put_drop (k := 0) hsize h0 hrange rfl
  rwa [Int.natCast_zero, Int.add_zero] at hword

/-! ## A store with the font -/

theorem size_bytes_loadFont (mem : Memory) :
    mem.loadFont.bytes.size = max font.length mem.bytes.size := by
  unfold loadFont
  simp only [Array.size_append, List.size_toArray, Array.size_extract, Nat.min_self]
  omega

theorem size_bytes_loadFont_blank :
    (blank memorySize).loadFont.bytes.size = memorySize := by
  rw [size_bytes_loadFont]
  simp [blank, memorySize, length_font, glyphSize]

/-- Where the font is put stands the font. -/
theorem byteAt_loadFont_of_lt {mem : Memory} {k : Nat} (h : k < font.length) :
    mem.loadFont.byteAt k = font.getD k 0 := by
  unfold byteAt loadFont
  simp only [Array.getD_eq_getD_getElem?, List.getD_eq_getElem?_getD]
  rw [Array.getElem?_append_left (by simpa using h), List.getElem?_toArray]

/-- After the font the store is what it was. -/
theorem byteAt_loadFont {mem : Memory} {k : Nat} (h : font.length ≤ k) :
    mem.loadFont.byteAt k = mem.byteAt k := by
  unfold byteAt loadFont
  simp only [Array.getD_eq_getD_getElem?]
  rw [Array.getElem?_append_right (by simpa using h), Array.getElem?_extract]
  simp only [List.size_toArray, Nat.min_self]
  split
  · congr 2
    omega
  · rename_i hout
    rw [Array.getElem?_eq_none (by omega)]

theorem byteAt_blank (size k : Nat) : (blank size).byteAt k = 0 := by
  unfold byteAt blank
  simp only [Array.getD_eq_getD_getElem?, Array.getElem?_replicate]
  split <;> rfl

end Memory

end ChipEight
