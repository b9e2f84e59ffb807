import ChipEight.CommandLine.Outcome
import ChipEight.Proofs.Assembly.RoundTrip
import ChipEight.Proofs.Places
import Mathlib.Data.List.Basic
import Mathlib.Data.Nat.Digits.Defs

/-!
# Disassembling a file

The command loads the file into a fresh machine, reads the block back that it loaded, and prints a
line for every two bytes of it.

**Theorem (`carryOut_disassemble`).** A file that fits into memory is printed in lines, one for
every two bytes and one for a byte that is left over. Each starts with columns of a fixed width,
which tell where the word stands and what it is; the rests of the lines assemble to the file. A file
that does not fit is not printed, and the exit status says so.

What a line has in its columns is read off the disassembly (`disassemble_getElem?`), and that the
rests assemble is the round trip of the texts (`assemble_of_spells`). In between stands memory: the
block that is read back is the file, up to the last address.
-/

namespace ChipEight

/-! ## Lines of a disassembly -/

namespace Text.HexLayout

/-- A number that needs no more room has the width of its layout. -/
theorem length_chars {layout : HexLayout} (hmarker : layout.marker = "") (hwidth : 0 < layout.width)
    {n : Nat} (h : n < 16 ^ layout.width) : (layout.chars n).length = layout.width := by
  have hdigits : (layout.digits n).length ≤ layout.width := by
    have hlength : (layout.digits n).length = (Nat.toDigits 16 n).length := by
      unfold digits
      split
      · exact List.length_map _
      · rfl
    rw [hlength]
    exact (Nat.length_toDigits_le_iff (by decide) hwidth).2 h
  have hlead : layout.lead n = [] := by
    rw [lead, hmarker, if_neg (by omega)]
    rfl
  rw [chars, hlead, Int.natAbs_natCast, List.length_append, List.length_append,
    List.length_replicate, List.length_nil]
  omega

end Text.HexLayout

namespace Assembly

/-- The word at place `2 * k` of an image, or the byte there if it is left over. -/
def wordAt (data : List UInt8) (k : Nat) : UInt16 :=
  match data.drop (2 * k) with
  | high :: low :: _ => Word.ofBytes high low
  | [byte] => byte.toUInt16
  | [] => 0

theorem length_disassemble (address : Int) (data : List UInt8) :
    (disassemble address data).length = (data.length + 1) / 2 := by
  fun_induction disassemble address data with
  | case1 => rfl
  | case2 => simp
  | case3 address high low rest word ih =>
    rw [List.length_cons, ih, List.length_cons, List.length_cons]
    omega

/-- Where the word of a line stands, and what it is. -/
theorem disassemble_getElem? {address : Int} {data : List UInt8} {k : Nat} {l : DisassembledLine}
    (h : (disassemble address data)[k]? = some l) :
    l.address = address + 2 * k ∧ l.word = wordAt data k := by
  induction address, data using disassemble.induct generalizing k with
  | case1 address => cases h
  | case2 address byte =>
    cases k with
    | zero =>
      cases h
      exact ⟨(Int.add_zero address).symm, rfl⟩
    | succ k => cases h
  | case3 address high low rest ih =>
    cases k with
    | zero =>
      cases h
      exact ⟨(Int.add_zero address).symm, rfl⟩
    | succ k =>
      obtain ⟨haddress, hword⟩ := ih h
      exact ⟨by omega, hword⟩

end Assembly

namespace CommandLine

open Assembly Text

/-- The columns at the start of a line that is printed. -/
def columns (address : Int) (word : UInt16) : String :=
  "  " ++ shortAddressLayout.render address ++ "  " ++ shortWordLayout.render word.toNat ++ "  "

theorem disassemblyLine_eq (l : DisassembledLine) :
    disassemblyLine l = line (columns l.address l.word ++ l.text) := rfl

/-- The columns are thirteen characters wide. -/
theorem length_columns {address : Nat} (haddress : address < 0x1000) (word : UInt16) :
    (columns address word).toList.length = 13 := by
  have hplace : (shortAddressLayout.chars address).length = 3 :=
    HexLayout.length_chars rfl (by decide) haddress
  have hword : (shortWordLayout.chars word.toNat).length = 4 :=
    HexLayout.length_chars rfl (by decide) word.toNat_lt
  simp only [columns, HexLayout.render, String.toList_append, String.toList_ofList,
    List.length_append, hplace, hword]
  rfl

/-- No line ends in the columns. -/
theorem not_mem_columns (address : Nat) (word : UInt16) :
    '\n' ∉ (columns address word).toList := by
  have hchars (layout : HexLayout) (hmarker : layout.marker = "") (n : Nat) :
      '\n' ∉ layout.chars n := by
    have hword : IsWord (layout.chars n) := isWord_chars (by rw [hmarker]; rfl) n
    exact hword.isTidy.not_mem (by decide)
  simp only [columns, HexLayout.render, String.toList_append, String.toList_ofList,
    List.mem_append, not_or]
  exact ⟨⟨⟨⟨by decide, hchars _ rfl _⟩, by decide⟩, hchars _ rfl _⟩, by decide⟩

/-! ## Words of the command line -/

/-- A word without a dash in front is an argument. -/
theorem readWords_of_no_dash {word : String} (h : word.toList.head? ≠ some '-') :
    readWords [word] = .ok [.argument word] := by
  have hdivider : word ≠ "--" := by
    rintro rfl
    exact h rfl
  have hword : readWord word = .ok (.argument word) := by
    unfold readWord
    split
    · next hdash =>
      rw [hdash] at h
      exact absurd rfl h
    · rfl
  simp only [readWords, if_neg hdivider, hword]
  rfl

/-- A word that is read as an argument is not the double dash. -/
theorem argument_of_readWords {word : String} (h : readWords [word] = .ok [.argument word]) :
    word ≠ "--" ∧ readWord word = .ok (.argument word) := by
  have hdivider : word ≠ "--" := by
    rintro rfl
    cases h
  refine ⟨hdivider, ?_⟩
  simp only [readWords, if_neg hdivider] at h
  cases hread : readWord word with
  | error e =>
    rw [hread] at h
    cases h
  | ok first =>
    rw [hread] at h
    cases h
    rfl

/-- A path that is read as an argument, and the option. -/
theorem parse_disassemble {path : String} (h : readWords [path] = .ok [.argument path]) :
    parse [path, "--disassemble"] = .ok (.run path { disassemble := true }) := by
  obtain ⟨hdivider, hword⟩ := argument_of_readWords h
  have hoption : readWords ["--disassemble"] = .ok [.option .disassemble .none] := rfl
  have hwords : readWords [path, "--disassemble"] =
      .ok [.argument path, .option .disassemble .none] := by
    rw [readWords, if_neg hdivider, hword, hoption]
    rfl
  rw [parse, hwords]
  rfl

/-! ## The command -/

/-- The most bytes that a program may have. -/
def programRoom : Nat := memorySize - programBase.toNat

/-- The emulator that the command sets up if no settings are given. -/
def defaultEmulator (random : Random.Source) : Emulator where
  machine := Machine.fresh random ⟨false, true⟩
  cpuRate := 600
  timerRate := 60
  strict := true
  skipped := #[]
  frames := 0
  programSize := 0

variable {path : String} {data : List UInt8}

theorem loadFile_of_le (e : Emulator) (hnull : path.contains '\x00' = false)
    (hsize : e.machine.memory.size = memorySize) (h : data.length ≤ programRoom) :
    e.loadFile path (.ok data) = .ok { e with
      machine := { e.machine with memory := e.machine.memory.put programBase data }
      programSize := data.length } := by
  have hfits : ¬(programBase < 0 ∨ (e.machine.memory.size : Int) < programBase + data.length) := by
    rw [hsize]
    simp only [programRoom, programBase, memorySize] at h ⊢
    omega
  rw [Emulator.loadFile, if_neg (by rw [hnull]; exact Bool.false_ne_true)]
  show e.loadProgram data programBase = _
  rw [Emulator.loadProgram, Machine.loadProgram, Memory.loadProgram, if_neg hfits]
  rfl

theorem loadFile_of_lt (e : Emulator) (hnull : path.contains '\x00' = false)
    (hsize : e.machine.memory.size = memorySize) (h : programRoom < data.length) :
    e.loadFile path (.ok data) = .error (.tooLarge data.length programBase memorySize) := by
  have hlarge : programBase < 0 ∨ (e.machine.memory.size : Int) < programBase + data.length := by
    rw [hsize]
    simp only [programRoom, programBase, memorySize] at h ⊢
    omega
  rw [Emulator.loadFile, if_neg (by rw [hnull]; exact Bool.false_ne_true)]
  show e.loadProgram data programBase = _
  rw [Emulator.loadProgram, Machine.loadProgram, Memory.loadProgram, if_pos hlarge, hsize]
  rfl

/-- The block that was loaded is the program, also if it ends at the last address. -/
theorem readBlock_put {mem : Memory} (hsize : mem.size = memorySize)
    (hbytes : mem.bytes.size = memorySize) (h : data.length ≤ programRoom) :
    (mem.put programBase data).readBlock programBase data.length = .ok data := by
  have hinside : programBase + data.length ≤ (memorySize : Int) := by
    simp only [programRoom, programBase, memorySize] at h ⊢
    omega
  have hallowed : (mem.put programBase data).refusal? programBase data.length = none := by
    rw [Memory.refusal?_eq_none, Memory.size_put, hsize]
    exact ⟨by decide, hinside⟩
  have hblock : (mem.put programBase data).block programBase data.length = data :=
    Memory.block_put (by decide) (by rw [hbytes]; exact hinside)
  rw [Memory.readBlock_eq, hallowed, hblock]

theorem perform_disassemble (path : String) (contents : Except FileProblem (List UInt8))
    (random : Random.Source) :
    perform path { disassemble := true } contents random =
      match (defaultEmulator random).loadFile path contents with
      | .error .nullInPath => .error .nullInPath
      | .error e => .ok (loadFailure e)
      | .ok e => .ok (disassembly e) := rfl

theorem perform_of_le (hnull : path.contains '\x00' = false) (h : data.length ≤ programRoom)
    (random : Random.Source) :
    perform path { disassemble := true } (.ok data) random =
      .ok { out := String.join ((disassemble programBase data).map disassemblyLine) } := by
  have hload := loadFile_of_le (defaultEmulator random) hnull rfl h
  have hbytes : (defaultEmulator random).machine.memory.bytes.size = memorySize :=
    Memory.size_bytes_loadFont_blank
  have hread : ((defaultEmulator random).machine.memory.put programBase data).readBlock programBase
      data.length = .ok data := readBlock_put rfl hbytes h
  -- What is read back from memory is the program itself.
  rw [perform_disassemble, hload]
  show Except.ok (disassembly _) = _
  rw [disassembly, hread]

theorem perform_of_lt (hnull : path.contains '\x00' = false) (h : programRoom < data.length)
    (random : Random.Source) :
    perform path { disassemble := true } (.ok data) random =
      .ok (loadFailure (.tooLarge data.length programBase memorySize)) := by
  have hload := loadFile_of_lt (defaultEmulator random) hnull rfl h
  rw [perform_disassemble, hload]

/-! ## What is printed -/

/-- The lines that are printed, without their ends. -/
def printed (data : List UInt8) : List String :=
  (disassemble programBase data).map fun l => columns l.address l.word ++ l.text

/-- Every line has an address of the machine, and a text without a line break. -/
theorem disassemble_spec (h : data.length ≤ programRoom) :
    ∀ l ∈ disassemble programBase data,
      (∃ address < 0x1000, l.address = (address : Nat)) ∧ IsTidy l.text.toList := by
  intro l hmem
  have htidy := (spells_disassemble programBase data).isTidy l.text (List.mem_map_of_mem hmem)
  obtain ⟨k, hk, hl⟩ := List.mem_iff_getElem.1 hmem
  obtain ⟨haddress, -⟩ := disassemble_getElem? (List.getElem?_eq_some_iff.2 ⟨hk, hl⟩)
  rw [length_disassemble] at hk
  simp only [programRoom, programBase, memorySize] at h haddress
  -- A program that fits ends at the last address of memory.
  exact ⟨⟨0x200 + 2 * k, by omega, by omega⟩, htidy⟩

theorem not_mem_printed (h : data.length ≤ programRoom) :
    ∀ text ∈ printed data, '\n' ∉ text.toList := by
  unfold printed
  rw [List.forall_mem_map]
  intro l hmem
  obtain ⟨⟨address, -, haddress⟩, htidy⟩ := disassemble_spec h l hmem
  rw [haddress, String.toList_append, List.mem_append, not_or]
  exact ⟨not_mem_columns address l.word, htidy.not_mem (by decide)⟩

/-- Without the columns the lines are the texts of the disassembly. -/
theorem drop_printed (h : data.length ≤ programRoom) :
    (printed data).map (fun text => String.ofList (text.toList.drop 13)) =
      (disassemble programBase data).map (·.text) := by
  unfold printed
  rw [List.map_map]
  apply List.map_congr_left
  intro l hmem
  obtain ⟨⟨address, hsmall, haddress⟩, -⟩ := disassemble_spec h l hmem
  have hlength := length_columns hsmall l.word
  show String.ofList ((columns l.address l.word ++ l.text).toList.drop 13) = l.text
  rw [haddress, String.toList_append, List.drop_left' hlength, String.ofList_toList]

theorem printed_getElem? {k : Nat} {text : String} (h : data.length ≤ programRoom)
    (htext : (printed data)[k]? = some text) :
    ∃ rest, text = columns (0x200 + 2 * k) (wordAt data k) ++ rest ∧
      (columns (0x200 + 2 * k) (wordAt data k)).length = 13 := by
  unfold printed at htext
  rw [List.getElem?_map, Option.map_eq_some_iff] at htext
  obtain ⟨l, hl, rfl⟩ := htext
  obtain ⟨haddress, hword⟩ := disassemble_getElem? hl
  obtain ⟨⟨address, hsmall, hnat⟩, -⟩ := disassemble_spec h l (List.mem_of_getElem? hl)
  have hplace : (0x200 + 2 * k : Int) = l.address := haddress.symm
  rw [hplace, ← hword]
  refine ⟨l.text, rfl, ?_⟩
  rw [hnat, ← String.length_toList]
  exact length_columns hsmall l.word

/-- **A printed disassembly loses nothing.** -/
theorem carryOut_disassemble {read : String → Except FileProblem (List UInt8)}
    (hpath : readWords [path] = .ok [.argument path]) (hnull : path.contains '\x00' = false)
    (hread : read path = .ok data) (random : Random.Source) :
    (data.length ≤ 3584 → ∃ lines : List String,
      carryOut [path, "--disassemble"] read random =
        .ok { exit := 0, out := String.join (lines.map line), messages := "" } ∧
      lines.length = (data.length + 1) / 2 ∧
      (∀ text ∈ lines, '\n' ∉ text.toList) ∧
      (∀ (k : Nat) (text : String), lines[k]? = some text → ∃ rest,
        text = columns (0x200 + 2 * k) (wordAt data k) ++ rest ∧
          (columns (0x200 + 2 * k) (wordAt data k)).length = 13) ∧
      (assemble ("\n".intercalate (lines.map fun text => String.ofList (text.toList.drop 13)))
        0x200).map Assembled.image = .ok data) ∧
    (3584 < data.length → carryOut [path, "--disassemble"] read random =
      .ok { exit := 1, out := "", messages :=
        line ("[chip8] load error: " ++
          (LoadError.tooLarge data.length programBase memorySize).message) }) := by
  have hcarry : carryOut [path, "--disassemble"] read random =
      perform path { disassemble := true } (.ok data) random := by
    rw [carryOut, parse_disassemble hpath, ← hread]
  refine ⟨fun h => ⟨printed data, ?_, ?_, not_mem_printed h, fun k text => printed_getElem? h, ?_⟩,
    fun h => hcarry.trans (perform_of_lt hnull h random)⟩
  · have hlines : disassemblyLine = line ∘ fun l => columns l.address l.word ++ l.text :=
      funext disassemblyLine_eq
    rw [hcarry, perform_of_le hnull h, printed, List.map_map, hlines]
  · rw [printed, List.length_map, length_disassemble]
  · rw [drop_printed h]
    exact assemble_of_spells (spells_disassemble programBase data) _

/-- A file of three bytes. -/
def toneFile (_ : String) : Except FileProblem (List UInt8) := .ok [0xF1, 0x18, 0xAB]

/-- It is printed in two lines, and the second one has the byte that is left over. -/
theorem carryOut_toneFile :
    readWords ["tone.ch8"] = .ok [.argument "tone.ch8"] ∧ "tone.ch8".contains '\x00' = false ∧
      toneFile "tone.ch8" = .ok [0xF1, 0x18, 0xAB] ∧
      ∃ first second : String,
        carryOut ["tone.ch8", "--disassemble"] toneFile (.ofBytes []) =
          .ok { out := "  200  F118  " ++ first ++ "\n" ++ ("  202  00AB  " ++ second ++ "\n") } ∧
        (assemble (first ++ "\n" ++ second) 0x200).map Assembled.image =
          .ok [0xF1, 0x18, 0xAB] := by
  have hpath : readWords ["tone.ch8"] = .ok [.argument "tone.ch8"] :=
    readWords_of_no_dash (by decide)
  have hnull : "tone.ch8".contains '\x00' = false := by simp
  have hread : toneFile "tone.ch8" = .ok [0xF1, 0x18, 0xAB] := rfl
  obtain ⟨lines, hout, hlength, -, hcolumns, himage⟩ :=
    (carryOut_disassemble hpath hnull hread (.ofBytes [])).1 (by decide)
  obtain ⟨text, other, rfl⟩ := List.length_eq_two.1 hlength
  obtain ⟨first, htext, -⟩ := hcolumns 0 text rfl
  obtain ⟨second, hother, -⟩ := hcolumns 1 other rfl
  have hfirst : columns (0x200 + 2 * (0 : Nat)) (wordAt [0xF1, 0x18, 0xAB] 0) = "  200  F118  " :=
    by decide
  have hsecond : columns (0x200 + 2 * (1 : Nat)) (wordAt [0xF1, 0x18, 0xAB] 1) = "  202  00AB  " :=
    by decide
  rw [htext, hother, hfirst, hsecond] at hout himage
  refine ⟨hpath, hnull, hread, first, second, ?_, ?_⟩
  · rw [hout]
    simp [String.join, line]
  · simpa using himage

end CommandLine

end ChipEight
