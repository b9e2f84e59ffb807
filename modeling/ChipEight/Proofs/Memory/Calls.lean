import ChipEight.Proofs.Places

/-!
# Calls on a store

A call on a store names a range of addresses: it reads the bytes of that range or writes over them.

**Theorem (`calls_checked`).** In whatever order they come, every call other than the one that puts
the font in its place is checked. It is refused exactly if its range is not within the bounds of the
store, and then the store stays as it is. Otherwise every byte of its range exists, those outside it
are left alone, and what was written is read back, each value come down to a byte. The store holds
as many bytes as its bounds say, unless the font was put into a store that is shorter than the font:
then it holds as many as the font has (`font_outgrows_store`).

A checked call that is allowed is a plain look at its range and a plain change of it
(`perform_of_inside`), and so is putting the font where there is room for it (`loadFont_eq_put`).
-/

namespace ChipEight

namespace Memory

/-! ## Calls -/

/-- A call on a store. -/
inductive Call where
  | readByte (address : Int)
  | writeByte (address value : Int)
  | readWord (address : Int)
  | readBlock (start : Int) (length : Nat)
  | writeBlock (start : Int) (values : List Int)
  | loadFont
  | loadProgram (program : List UInt8) (base : Int)
  deriving Repr, DecidableEq

/-- What a call gives back. -/
inductive Answer where
  | done
  | byte (value : UInt8)
  | word (value : UInt16)
  | block (values : List UInt8)
  deriving Repr, DecidableEq

/-- Why a call is refused. -/
inductive Refusal where
  | access (fault : Fault)
  | load (error : LoadError)
  deriving Repr, DecidableEq

/-- Do what a call asks for. Values are written as the bytes that they wrap to. -/
def perform (m : Memory) : Call → Except Refusal (Answer × Memory)
  | .readByte address => do
    let value ← (m.readByte address).mapError .access
    return (.byte value, m)
  | .writeByte address value => do
    let m ← (m.writeByte address (wrapByte value)).mapError .access
    return (.done, m)
  | .readWord address => do
    let value ← (m.readWord address).mapError .access
    return (.word value, m)
  | .readBlock start length => do
    let values ← (m.readBlock start length).mapError .access
    return (.block values, m)
  | .writeBlock start values => do
    let m ← (m.writeBlock start (values.map wrapByte)).mapError .access
    return (.done, m)
  | .loadFont => return (.done, m.loadFont)
  | .loadProgram program base => do
    let m ← (m.loadProgram program base).mapError .load
    return (.done, m)

/-- The store after a call. One that is refused leaves it alone. -/
def after (m : Memory) (call : Call) : Memory :=
  match m.perform call with
  | .ok (_, m') => m'
  | .error _ => m

/-- The store after calls, one after the other. -/
def afterAll (m : Memory) (calls : List Call) : Memory := calls.foldl after m

namespace Call

/-- The first address that a call names. -/
def start : Call → Int
  | .readByte address | .writeByte address _ | .readWord address => address
  | .readBlock start _ | .writeBlock start _ => start
  | .loadFont => 0
  | .loadProgram _ base => base

/-- How many addresses a call names. -/
def length : Call → Nat
  | .readByte _ | .writeByte _ _ => 1
  | .readWord _ => 2
  | .readBlock _ length => length
  | .writeBlock _ values => values.length
  | .loadFont => font.length
  | .loadProgram program _ => program.length

/-- What a call is to write over its range, if it writes. -/
def data? : Call → Option (List Int)
  | .writeByte _ value => some [value]
  | .writeBlock _ values => some values
  | .loadFont => some (font.map fun byte => (byte.toNat : Int))
  | .loadProgram program _ => some (program.map fun byte => (byte.toNat : Int))
  | .readByte _ | .readWord _ | .readBlock _ _ => none

/-- What a call gives back for the bytes of its range. -/
def answer (bytes : List UInt8) : Call → Answer
  | .readByte _ => .byte (bytes.getD 0 0)
  | .readWord _ => .word (Word.ofBytes (bytes.getD 0 0) (bytes.getD 1 0))
  | .readBlock _ _ => .block bytes
  | .writeByte _ _ | .writeBlock _ _ | .loadFont | .loadProgram _ _ => .done

/-- The range of a call is within the bounds of a store. -/
def Inside (call : Call) (size : Nat) : Prop := 0 ≤ call.start ∧ call.start + call.length ≤ size

theorem length_of_data? {call : Call} {data : List Int} (h : call.data? = some data) :
    call.length = data.length := by
  cases call with
  | writeByte _ _ | writeBlock _ _ =>
    cases h
    rfl
  | loadFont | loadProgram _ _ =>
    cases h
    exact (List.length_map _).symm
  | readByte _ | readWord _ | readBlock _ _ => cases h

end Call

variable {m : Memory} {call : Call}

/-! ## Checked calls -/

theorem check_of_inside (h : call.Inside m.size) : m.check call.start call.length = .ok () :=
  if_neg (by unfold Call.Inside at h; omega)

theorem check_of_outside (h : ¬ call.Inside m.size) :
    ∃ fault, m.check call.start call.length = .error fault :=
  ⟨_, if_pos (by unfold Call.Inside at h; omega)⟩

/-- The store over which a call writes. -/
def written (m : Memory) (call : Call) : Memory :=
  match call.data? with
  | some data => m.put call.start (data.map wrapByte)
  | none => m

theorem written_of_data {data : List Int} (h : call.data? = some data) :
    m.written call = m.put call.start (data.map wrapByte) := by
  rw [written, h]

theorem perform_of_outside (hfont : call ≠ .loadFont) (h : ¬ call.Inside m.size) :
    ∃ refusal, m.perform call = .error refusal := by
  obtain ⟨fault, hcheck⟩ := check_of_outside h
  cases call with
  | readByte _ | writeByte _ _ | readWord _ | readBlock _ _ | writeBlock _ _ =>
    refine ⟨.access fault, ?_⟩
    simp only [Call.start, Call.length, Int.cast_ofNat_Int] at hcheck
    simp only [perform, readByte, writeByte, readWord, readBlock, writeBlock, List.length_map]
    rw [hcheck]
    rfl
  | loadFont => exact absurd rfl hfont
  | loadProgram program base =>
    have hrange : base < 0 ∨ m.size < base + program.length := by
      simp only [Call.Inside, Call.start, Call.length] at h
      omega
    refine ⟨.load (.tooLarge program.length base m.size), ?_⟩
    simp only [perform, loadProgram, if_pos hrange]
    rfl

/-- The bytes of a block are those of the store. -/
theorem getD_block {start : Int} {length k : Nat} (h0 : 0 ≤ start)
    (h1 : start + length ≤ m.bytes.size) (hk : k < length) :
    (m.block start length).getD k 0 = m.byteAt (start.toNat + k) := by
  rw [List.getD_eq_getElem?_getD, getElem?_block h0 h1, if_pos hk, Option.getD_some]

theorem perform_of_inside (hfont : call ≠ .loadFont) (hfits : m.size ≤ m.bytes.size)
    (h : call.Inside m.size) :
    m.perform call = .ok (call.answer (m.block call.start call.length), m.written call) := by
  have hcheck := check_of_inside h
  have hbytes : call.start + call.length ≤ m.bytes.size := by
    have := h.2
    omega
  -- Reading gives what stands in the range, and writing replaces it.
  have hbyte (k : Nat) (hk : k < call.length) := getD_block h.1 hbytes hk
  cases call with
  | readByte address =>
    simp only [Call.start, Call.length, Int.cast_ofNat_Int] at hcheck hbyte
    simp only [perform, readByte, hcheck, Call.answer, Call.start, Call.length, Int.cast_ofNat_Int,
      hbyte 0 Nat.zero_lt_one]
    rfl
  | readWord address =>
    simp only [Call.start, Call.length, Int.cast_ofNat_Int] at hcheck hbyte
    simp only [perform, readWord, hcheck, Call.answer, Call.start, Call.length, Int.cast_ofNat_Int,
      hbyte 0 Nat.zero_lt_two, hbyte 1 Nat.one_lt_two]
    rfl
  | readBlock _ _ | writeByte _ _ | writeBlock _ _ =>
    simp only [Call.start, Call.length, Int.cast_ofNat_Int] at hcheck
    simp only [perform, readBlock, writeByte, writeBlock, List.length_map, hcheck]
    rfl
  | loadFont => exact absurd rfl hfont
  | loadProgram program base =>
    have hrange : ¬ (base < 0 ∨ m.size < base + program.length) := by
      simp only [Call.Inside, Call.start, Call.length] at h
      omega
    rw [written_of_data rfl, map_wrapByte_toNat]
    simp only [perform, loadProgram, if_neg hrange]
    rfl

/-! ## The font -/

/-- Where there is room for it, the font is put like any other bytes. -/
theorem loadFont_eq_put (h : font.length ≤ m.bytes.size) : m.loadFont = m.put 0 font := by
  have hrange : (0 : Int).toNat + font.length ≤ m.bytes.size := by simpa using h
  refine ext_byteAt rfl ?_ fun k => ?_
  · rw [size_bytes_loadFont, size_bytes_put, Nat.max_eq_right h]
  · rcases Nat.lt_or_ge k font.length with hlt | hge
    · have hput := byteAt_put_of_inside hrange hlt
      rw [Int.toNat_zero, Nat.zero_add] at hput
      rw [byteAt_loadFont_of_lt hlt, hput, List.getD_eq_getElem?_getD, List.getElem?_eq_getElem hlt,
        Option.getD_some]
    · rw [byteAt_loadFont hge, byteAt_put_of_outside hrange (.inr (by simpa using hge))]

/-! ## What a call does to a store -/

theorem after_of_refused {refusal : Refusal} (h : m.perform call = .error refusal) :
    m.after call = m := by
  rw [after, h]

theorem after_of_inside (hfits : m.size ≤ m.bytes.size) (h : call.Inside m.size) :
    m.after call = m.written call := by
  by_cases hfont : call = .loadFont
  · subst hfont
    have hroom : font.length ≤ m.bytes.size := by
      have hbound : (0 : Int) + font.length ≤ m.size := h.2
      omega
    rw [written_of_data rfl, map_wrapByte_toNat]
    exact loadFont_eq_put hroom
  · rw [after, perform_of_inside hfont hfits h]

theorem size_bytes_written : (m.written call).bytes.size = m.bytes.size := by
  unfold written
  split
  · exact size_bytes_put _ _ _
  · rfl

theorem size_written : (m.written call).size = m.size := by
  unfold written
  split <;> rfl

/-- A call changes no bounds, and the number of bytes only if it puts the font. -/
theorem sizes_after (hfits : m.size ≤ m.bytes.size) (call : Call) :
    (m.after call).size = m.size ∧ (m.after call).bytes.size =
      if call = .loadFont then max font.length m.bytes.size else m.bytes.size := by
  by_cases hfont : call = .loadFont
  · subst hfont
    exact ⟨rfl, (size_bytes_loadFont m).trans (if_pos rfl).symm⟩
  · rw [if_neg hfont]
    by_cases hinside : call.Inside m.size
    · rw [after_of_inside hfits hinside]
      exact ⟨size_written, size_bytes_written⟩
    · obtain ⟨refusal, hrefusal⟩ := perform_of_outside hfont hinside
      rw [after_of_refused hrefusal]
      exact ⟨rfl, rfl⟩

/-- Nor do calls, one after the other. -/
theorem sizes_afterAll (hfits : m.size ≤ m.bytes.size) (calls : List Call) :
    (m.afterAll calls).size = m.size ∧ (m.afterAll calls).bytes.size =
      if .loadFont ∈ calls then max font.length m.bytes.size else m.bytes.size := by
  induction calls generalizing m with
  | nil => exact ⟨rfl, rfl⟩
  | cons call rest ih =>
    obtain ⟨hsize, hbytes⟩ := sizes_after hfits call
    have hstill : (m.after call).size ≤ (m.after call).bytes.size := by
      rw [hsize, hbytes]
      split <;> omega
    obtain ⟨hsize', hbytes'⟩ := ih hstill
    refine ⟨hsize'.trans hsize, hbytes'.trans ?_⟩
    rw [hbytes]
    -- The font counts once, however often it is loaded.
    by_cases hfirst : call = .loadFont
    · subst hfirst
      rw [if_pos rfl, if_pos List.mem_cons_self]
      split <;> omega
    · have hmem : .loadFont ∈ call :: rest ↔ .loadFont ∈ rest := by simp [Ne.symm hfirst]
      rw [if_neg hfirst]
      simp only [hmem]

theorem getElem?_bytes (m : Memory) (k : Nat) :
    m.bytes[k]? = if k < m.bytes.size then some (m.byteAt k) else none := by
  split
  · next h =>
    rw [byteAt, Array.getD_eq_getD_getElem?, Array.getElem?_eq_getElem h, Option.getD_some]
  · next h => exact Array.getElem?_eq_none (Nat.le_of_not_lt h)

/-- A call leaves alone what is outside its range. -/
theorem getElem?_after_of_outside (hfits : m.size ≤ m.bytes.size) {k : Nat}
    (hk : (k : Int) < call.start ∨ call.start + call.length ≤ k) :
    (m.after call).bytes[k]? = m.bytes[k]? := by
  by_cases hinside : call.Inside m.size
  · rw [after_of_inside hfits hinside, getElem?_bytes, getElem?_bytes m, size_bytes_written]
    obtain ⟨h0, h1⟩ := hinside
    cases hdata : call.data? with
    | some data =>
      rw [Call.length_of_data? hdata] at hk h1
      rw [written_of_data hdata, byteAt_put_of_outside] <;> rw [List.length_map] <;> omega
    | none => rw [written, hdata]
  · by_cases hfont : call = .loadFont
    · -- The range of the font is not empty, so there is no byte behind it.
      subst hfont
      have hbehind : font.length ≤ k := by
        have : (k : Int) < 0 ∨ (0 : Int) + font.length ≤ k := hk
        omega
      rw [getElem?_bytes, getElem?_bytes m, (sizes_after hfits .loadFont).2, if_pos rfl]
      show (if _ then some (m.loadFont.byteAt k) else none) = _
      rw [byteAt_loadFont hbehind]
      split <;> split <;> first | rfl | omega
    -- Any other call is refused here, and does nothing.
    · obtain ⟨refusal, hrefusal⟩ := perform_of_outside hfont hinside
      rw [after_of_refused hrefusal]

/-- What was written is read back. -/
theorem readBlock_after (hfits : m.size ≤ m.bytes.size) (hinside : call.Inside m.size)
    {data : List Int} (hdata : call.data? = some data) :
    (m.after call).readBlock call.start call.length = .ok (data.map wrapByte) := by
  have hlength : call.length = (data.map wrapByte).length := by
    rw [List.length_map, Call.length_of_data? hdata]
  have hallowed : (m.put call.start (data.map wrapByte)).refusal? call.start call.length = none :=
    refusal?_eq_none.2 hinside
  have hrange : call.start + (data.map wrapByte).length ≤ m.bytes.size := by
    have hbound := hinside.2
    omega
  rw [after_of_inside hfits hinside, written_of_data hdata, readBlock_eq, hallowed, hlength,
    block_put hinside.1 hrange]

/-- A call on a store is checked, and does no more than it says. -/
structure Checked (m : Memory) (call : Call) : Prop where
  /-- A call is refused if its range is not within the bounds; putting the font never is. -/
  refused : (∃ refusal, m.perform call = .error refusal) ↔
    call ≠ .loadFont ∧ ¬ call.Inside m.size
  /-- A call that is refused does nothing. -/
  unchanged : ∀ refusal, m.perform call = .error refusal → m.after call = m
  /-- A checked call that is allowed finds every byte of its range. -/
  found : call ≠ .loadFont → call.Inside m.size → ∃ bytes,
    m.blockAt? call.start call.length = some bytes ∧
      m.perform call = .ok (call.answer bytes, m.after call)
  /-- Bytes outside the range stay what they are. -/
  outside : ∀ k : Nat, (k : Int) < call.start ∨ call.start + call.length ≤ k →
    (m.after call).bytes[k]? = m.bytes[k]?
  /-- A call that only reads leaves the store alone. -/
  reading : call.data? = none → m.after call = m
  /-- A call that writes comes to the end of its range, one byte after the other. -/
  whole : ∀ data, call.data? = some data → call.Inside m.size →
    overwriteAt? m.bytes call.start (data.map wrapByte) = some (m.after call).bytes
  /-- What was written is read back, each value come down to a byte. -/
  readBack : ∀ data, call.data? = some data → call.Inside m.size → ∃ bytes,
    (m.after call).readBlock call.start call.length = .ok bytes ∧
      bytes.map (fun byte => (byte.toNat : Int)) = data.map (· % 256)

theorem checked (hfits : m.size ≤ m.bytes.size) (call : Call) : m.Checked call where
  refused := by
    constructor
    · rintro ⟨refusal, hrefusal⟩
      have hfont : call ≠ .loadFont := by
        rintro rfl
        cases hrefusal
      refine ⟨hfont, fun hinside => ?_⟩
      rw [perform_of_inside hfont hfits hinside] at hrefusal
      cases hrefusal
    · rintro ⟨hfont, hinside⟩
      exact perform_of_outside hfont hinside
  unchanged _ := after_of_refused
  found hfont hinside := by
    refine ⟨m.block call.start call.length, blockAt?_eq hinside.1 ?_, ?_⟩
    · have hbound := hinside.2
      omega
    · rw [after_of_inside hfits hinside, perform_of_inside hfont hfits hinside]
  outside _ := getElem?_after_of_outside hfits
  reading hdata := by
    by_cases hinside : call.Inside m.size
    · rw [after_of_inside hfits hinside, written, hdata]
    · have hfont : call ≠ .loadFont := by
        rintro rfl
        cases hdata
      obtain ⟨refusal, hrefusal⟩ := perform_of_outside hfont hinside
      exact after_of_refused hrefusal
  whole data hdata hinside := by
    have hbound := hinside.2
    have hlength := Call.length_of_data? hdata
    rw [after_of_inside hfits hinside, written_of_data hdata]
    exact overwriteAt?_eq hinside.1 (by rw [List.length_map]; omega)
  readBack data hdata hinside := by
    refine ⟨data.map wrapByte, readBlock_after hfits hinside hdata, ?_⟩
    rw [List.map_map]
    exact List.map_congr_left fun value _ => toNat_wrapByte value

/-- **Accesses are checked, whatever was called before.** -/
theorem calls_checked (size : Nat) (calls : List Call) :
    let m := (blank size).afterAll calls
    m.size = size ∧
      m.bytes.size = (if .loadFont ∈ calls then max font.length size else size) ∧
      (∀ byte ∈ m.bytes, byte.toNat ≤ 255) ∧ ∀ call, m.Checked call := by
  have hblank : (blank size).bytes.size = size := Array.size_replicate
  obtain ⟨hsize, hbytes⟩ := sizes_afterAll (m := blank size) (Nat.le_of_eq hblank.symm) calls
  rw [hblank] at hbytes
  refine ⟨hsize, hbytes, fun byte _ => Nat.le_of_lt_succ byte.toNat_lt, checked ?_⟩
  rw [hsize, hbytes]
  show size ≤ _
  split <;> omega

/-- A store of sixteen bytes comes to hold the eighty bytes of the font. -/
theorem font_outgrows_store :
    ¬ ∀ (size : Nat) (calls : List Call), ((blank size).afterAll calls).bytes.size = size := by
  intro h
  have hsize := h 16 [.loadFont]
  have hfont : ((blank 16).afterAll [.loadFont]).bytes.size = max font.length 16 :=
    (size_bytes_loadFont (blank 16)).trans (congrArg (max font.length) Array.size_replicate)
  rw [hsize, length_font] at hfont
  exact absurd hfont (by decide)

end Memory

end ChipEight
