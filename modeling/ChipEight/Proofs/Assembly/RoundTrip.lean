import ChipEight.Assembly.Disassembly
import ChipEight.Assembly.Image
import ChipEight.Proofs.Assembly.Reading

/-!
# The round trip

Assembling a disassembly gives the image back, whatever the image and wherever either is told that
it starts (`assemble_sourceOf_disassemble`). A line of a disassembly emits the bytes it was made of
(`Emits`), and a source text of such lines has no labels, so its image is what its lines emit one
after the other (`assemble_of_spells`).
-/

namespace ChipEight.Assembly

open Text Instruction

/-! ## One line -/

/-- Whether the statement emits bytes, and is no label and no origin. -/
def Statement.isContent : Statement → Bool
  | .label _ | .origin _ => false
  | _ => true

section Content

variable {line : SourceLine} (h : (Statement.ofText line.text).isContent = true)

include h

theorem step_of_content (l : Layout) :
    l.step line = .ok { l with address := l.address + (Statement.ofText line.text).size } := by
  unfold Layout.step
  split
  case h_1 name statement =>
    rw [statement] at h
    cases h
  case h_2 operand statement =>
    rw [statement] at h
    cases h
  case h_3 => rfl

theorem rowAt?_of_content (labels : Labels) (address : Int) :
    rowAt? labels address line =
      match (Statement.ofText line.text).emit labels with
      | .error complaint => .error (.ofComplaint line.number complaint)
      | .ok bytes => .ok (some ⟨address, 0, bytes, line.text⟩) := by
  unfold rowAt?
  split
  case h_1 name statement =>
    rw [statement] at h
    cases h
  case h_2 operand statement =>
    rw [statement] at h
    cases h
  case h_3 => rfl

end Content

/-- The text is a line that emits the bytes, and needs no labels for it. -/
structure Emits (text : List Char) (bytes : List UInt8) : Prop where
  tidy : IsTidy text
  content : (Statement.ofText text).isContent = true
  emit : (Statement.ofText text).emit [] = .ok bytes

namespace Emits

variable {text : List Char} {bytes : List UInt8}

theorem step_ok (h : Emits text bytes) (l : Layout) (number : Nat) :
    ∃ next, l.step ⟨number, text⟩ = .ok next ∧ next.labels = l.labels :=
  ⟨_, step_of_content h.content l, rfl⟩

theorem rowAt?_eq (h : Emits text bytes) (address : Int) (number : Nat) :
    rowAt? [] address ⟨number, text⟩ = .ok (some ⟨address, 0, bytes, text⟩) := by
  rw [rowAt?_of_content h.content, h.emit]

end Emits

theorem resolveAll_singleton {labels : Labels} {bits value : Nat} {token : List Char}
    (h : resolve labels bits token = .ok value) : resolveAll labels bits [token] = .ok [value] := by
  rw [resolveAll, ok_bind h]
  rfl

theorem emits_byte (byte : UInt8) :
    Emits (".db " ++ byteLayout.render byte.toNat).toList [byte] := by
  have hword : IsWord (byteLayout.chars byte.toNat) := isWord_chars (by decide) byte.toNat
  have hdirective : IsWord ".db".toList := by decide
  have htext : (".db " ++ byteLayout.render byte.toNat).toList =
      '.' :: 'd' :: 'b' :: ' ' :: byteLayout.chars byte.toNat := by
    simp [HexLayout.render]
  have htidy : IsTidy ('.' :: 'd' :: 'b' :: ' ' :: byteLayout.chars byte.toNat) := by
    have hgap : [' '].all isInline = true := by decide
    simpa using hdirective.isTidy.append hgap hword.isTidy
  have hstatement := ofText_bytes htidy
  rw [splitOperands_of_isWord hword] at hstatement
  have hresolve : resolve [] 8 (byteLayout.chars byte.toNat) = .ok byte.toNat :=
    resolve_chars rfl byte.toNat_lt
  rw [htext]
  refine ⟨htidy, ?_, ?_⟩
  · rw [hstatement]
    rfl
  · rw [hstatement, Statement.emit, ok_bind (resolveAll_singleton hresolve)]
    exact congrArg (fun b => Except.ok [b]) UInt8.ofNat_toNat

theorem emits_unknown (word : UInt16) : Emits (unknown word).text.toList (Word.toBytes word) := by
  have hstatement := ofText_unknown word
  have hresolve : resolve [] 16 (wordLayout.chars word.toNat) = .ok word.toNat :=
    resolve_chars rfl word.toNat_lt
  refine ⟨isTidy_text _, ?_, ?_⟩
  · rw [hstatement]
    rfl
  · rw [hstatement, Statement.emit, ok_bind (resolveAll_singleton hresolve)]
    show Except.ok (Word.toBytes (UInt16.ofNat word.toNat) ++ []) = _
    rw [UInt16.ofNat_toNat, List.append_nil]

theorem emits_known {i : Instruction} (h : i.isKnown = true) :
    Emits i.text.toList (Word.toBytes i.encode) := by
  have hstatement := ofText_text h
  have hwrites : (Operation.mk [] i.parts.1.toList (joinOperands i.parts.2).toList).Writes
      i.parts.2 := ⟨rfl, splitOperands_joinOperands (isWord_operand i)⟩
  refine ⟨isTidy_text i, ?_, ?_⟩
  · rw [hstatement]
    rfl
  · rw [hstatement, Statement.emit, ok_bind (instruction_eq h rfl hwrites)]
    rfl

/-- The text of the instruction that a word stands for emits the word. -/
theorem emits_decode (word : UInt16) : Emits (decode word).text.toList (Word.toBytes word) := by
  have hword := encode_decode word
  -- `encode_decode` turns the word into the code of its instruction; only then does it matter
  -- whether there is one.
  cases hi : decode word with
  | unknown other =>
    rw [hi] at hword
    subst hword
    exact emits_unknown _
  | _ =>
    rw [← hword, hi]
    exact emits_known rfl

/-! ## All lines -/

/-- The texts emit the image, one line after the other. -/
inductive Spells : List String → List UInt8 → Prop
  | nil : Spells [] []
  | cons {text : String} {bytes : List UInt8} {texts : List String} {image : List UInt8}
      (first : Emits text.toList bytes) (rest : Spells texts image) :
      Spells (text :: texts) (bytes ++ image)

theorem toBytes_ofBytes (high low : UInt8) :
    Word.toBytes (Word.ofBytes high low) = [high, low] := by
  have hhigh := high.toNat_lt
  have hlow := low.toNat_lt
  have hword : (Word.ofBytes high low).toNat = high.toNat * 256 + low.toNat := by
    simp only [Word.ofBytes, UInt16.toNat_ofNat']
    omega
  have hfirst : UInt8.ofNat ((high.toNat * 256 + low.toNat) / 256) = high := by
    apply UInt8.toNat_inj.1
    rw [UInt8.toNat_ofNat']
    omega
  have hsecond : UInt8.ofNat (high.toNat * 256 + low.toNat) = low := by
    apply UInt8.toNat_inj.1
    rw [UInt8.toNat_ofNat']
    omega
  rw [Word.toBytes, hword, hfirst, hsecond]

theorem spells_disassemble (address : Int) (data : List UInt8) :
    Spells ((disassemble address data).map (·.text)) data := by
  fun_induction disassemble address data with
  | case1 => exact .nil
  | case2 address byte => exact .cons (emits_byte byte) .nil
  | case3 address high low rest word ih =>
    have hfirst := emits_decode (Word.ofBytes high low)
    rw [toBytes_ofBytes] at hfirst
    exact .cons hfirst ih

theorem numberLines_cons {text : List Char} (h : IsTidy text) (number : Nat)
    (rest : List (List Char)) :
    numberLines number (text :: rest) = ⟨number, text⟩ :: numberLines (number + 1) rest := by
  have hkept : ¬ text.isEmpty = true := by simp [h.ne_nil]
  simp only [numberLines, h.lineText_eq, if_neg hkept]

/-- Going through the lines defines no label. -/
theorem scan_of_spells {texts : List String} {image : List UInt8} (h : Spells texts image)
    (l : Layout) (number : Nat) :
    ∃ last, l.scan (numberLines number (texts.map String.toList)) = .ok last ∧
      last.labels = l.labels := by
  induction h generalizing l number with
  | nil => exact ⟨l, rfl, rfl⟩
  | @cons text bytes texts image first rest ih =>
    obtain ⟨next, hnext, hlabels⟩ := first.step_ok l number
    obtain ⟨last, hlast, hkept⟩ := ih next (number + 1)
    refine ⟨last, ?_, hkept.trans hlabels⟩
    rw [List.map_cons, numberLines_cons first.tidy, Layout.scan, ok_bind hnext, hlast]

/-- The rows of the lines have the image between them, at whatever address they start. -/
theorem rowsFrom_of_spells {texts : List String} {image : List UInt8} (h : Spells texts image)
    (address : Int) (number : Nat) :
    ∃ rows, rowsFrom [] address (numberLines number (texts.map String.toList)) = .ok rows ∧
      rows.flatMap Row.image = image := by
  induction h generalizing address number with
  | nil => exact ⟨[], rfl, rfl⟩
  | @cons text bytes texts image first rest ih =>
    have hrow := first.rowAt?_eq address number
    obtain ⟨rows, hrows, himage⟩ := ih (Row.after ⟨address, 0, bytes, text.toList⟩) (number + 1)
    refine ⟨⟨address, 0, bytes, text.toList⟩ :: rows, ?_, ?_⟩
    · rw [List.map_cons, numberLines_cons first.tidy, rowsFrom, ok_bind hrow]
      exact ok_bind hrows
    · rw [List.flatMap_cons, himage]
      rfl

theorem Spells.isTidy {texts : List String} {image : List UInt8} (h : Spells texts image) :
    ∀ text ∈ texts, IsTidy text.toList := by
  induction h with
  | nil => simp
  | cons first rest ih =>
    rw [List.forall_mem_cons]
    exact ⟨first.tidy, ih⟩

theorem sourceLines_of_spells {texts : List String} {image : List UInt8} (h : Spells texts image) :
    sourceLines ("\n".intercalate texts).toList = numberLines 1 (texts.map String.toList) := by
  have hlines : ∀ line ∈ texts.map String.toList, '\n' ∉ line := by
    rw [List.forall_mem_map]
    intro text hmem
    exact (h.isTidy text hmem).not_mem (by decide)
  rw [sourceLines, String.toList_intercalate]
  -- An empty source text still has one line, which is left out because nothing is on it.
  cases texts with
  | nil => rfl
  | cons text more =>
    have hend : "\n".toList = ['\n'] := by simp
    rw [hend, pieces_intercalate (by simp) hlines]

theorem assemble_of_spells {texts : List String} {image : List UInt8} (h : Spells texts image)
    (base : Int) : (assemble ("\n".intercalate texts) base).map Assembled.image = .ok image := by
  obtain ⟨layout, hlayout, hlabels⟩ := scan_of_spells h ⟨[], base⟩ 1
  obtain ⟨rows, hrows, himage⟩ := rowsFrom_of_spells h base 1
  simp only at hlabels
  rw [← hlabels] at hrows
  simp only [assemble, sourceLines_of_spells h]
  rw [ok_bind hlayout, ok_bind hrows]
  exact congrArg Except.ok himage

/-- The texts of a disassembly assemble to the image that was disassembled, and the addresses that
either is told make no difference. -/
theorem assemble_sourceOf_disassemble (data : List UInt8) (first base : Int) :
    (assemble (sourceOf (disassemble first data)) base).map Assembled.image = .ok data :=
  assemble_of_spells (spells_disassemble first data) base

end ChipEight.Assembly
