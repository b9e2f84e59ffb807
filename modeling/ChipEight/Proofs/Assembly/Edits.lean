import ChipEight.Proofs.Assembly.Numbering

/-!
# Comments and empty lines

**Theorem (`assemble_edited`).** Comments that are put behind the lines of a source text, and lines
with nothing but blanks and comments that are put between them, make no difference to what is
assembled. If something is wrong with the text, the same is wrong with it afterwards, and it is
still said of the same line, which stands further down by as many lines as were put in above it.

A silent text has only blanks before its comment. Put behind a line it leaves the text of the line
alone (`lineText_append_silent`), and as a line of its own it has no text. So the lines that are
gone through are the same ones with other numbers (`Edit.sourceLines_apply`), and a number only says
where a mistake is.
-/

namespace ChipEight.Assembly

open Text

/-! ## Silent texts -/

/-- A text without a line break that says nothing: there are only blanks before its comment, if it
has one. -/
def IsSilent (cs : List Char) : Prop :=
  '\n' ∉ cs ∧ (cs.takeWhile (· ≠ ';')).all isBlank = true

instance : DecidablePred IsSilent := fun _ => inferInstanceAs (Decidable (_ ∧ _))

/-- The silent texts. -/
abbrev Silent := { cs : List Char // IsSilent cs }

theorem lineText_silent (cs : Silent) : lineText cs.val = [] :=
  trim_eq_nil.2 (List.all_eq_true.1 cs.property.2)

/-- Nothing is said behind a line, in a comment of the line or outside of it. -/
theorem lineText_append_silent (line : List Char) (cs : Silent) :
    lineText (line ++ cs.val) = lineText line := by
  unfold lineText
  rw [List.takeWhile_append]
  split
  · next hall =>
    have hline : line.takeWhile (· ≠ ';') = line :=
      (List.takeWhile_prefix _).eq_of_length hall
    rw [hline]
    exact trim_append_blanks (List.all_eq_true.1 cs.property.2)
  · rfl

theorem numberLines_silent (number : Nat) (texts : List Silent) :
    numberLines number (texts.map (·.val)) = [] := by
  induction texts generalizing number with
  | nil => rfl
  | cons cs rest ih =>
    rw [List.map_cons, numberLines, lineText_silent]
    exact ih (number + 1)

/-! ## Edits -/

/-- Silent texts that are put into a source text. -/
structure Edit where
  /-- The lines put in above the line with a number. -/
  above : Nat → List Silent
  /-- What is put behind the line with a number. -/
  behind : Nat → Silent
  /-- The lines put in below the last one. -/
  below : List Silent

namespace Edit

/-- The edited lines, the first of which has a number. -/
def linesFrom (e : Edit) (number : Nat) : List (List Char) → List (List Char)
  | [] => e.below.map (·.val)
  | line :: rest =>
    (e.above number).map (·.val) ++
      (line ++ (e.behind number).val) :: e.linesFrom (number + 1) rest

/-- The edited source text. -/
def apply (e : Edit) (source : String) : String :=
  String.ofList (['\n'].intercalate (e.linesFrom 1 (pieces '\n' source.toList)))

/-- How many lines were put in above the line with a number. -/
def addedAbove (e : Edit) : Nat → Nat
  | 0 => 0
  | number + 1 => e.addedAbove number + (e.above (number + 1)).length

/-- The number that a line has afterwards. -/
def place (e : Edit) (number : Nat) : Nat := number + e.addedAbove number

variable (e : Edit)

theorem place_succ (number : Nat) :
    e.place (number + 1) = e.place number + 1 + (e.above (number + 1)).length := by
  simp only [place, addedAbove]
  omega

theorem linesFrom_ne_nil (number : Nat) {lines : List (List Char)} (h : lines ≠ []) :
    e.linesFrom number lines ≠ [] := by
  cases lines with
  | nil => exact absurd rfl h
  | cons line rest => simp [linesFrom]

theorem not_mem_of_mem_linesFrom (number : Nat) {lines : List (List Char)}
    (h : ∀ line ∈ lines, '\n' ∉ line) : ∀ line ∈ e.linesFrom number lines, '\n' ∉ line := by
  have hsilent (texts : List Silent) : ∀ line ∈ texts.map (·.val), '\n' ∉ line := by
    rw [List.forall_mem_map]
    exact fun cs _ => cs.property.1
  induction lines generalizing number with
  | nil => exact hsilent e.below
  | cons line rest ih =>
    obtain ⟨hline, hrest⟩ := List.forall_mem_cons.1 h
    rw [linesFrom, List.forall_mem_append, List.forall_mem_cons, List.mem_append, not_or]
    exact ⟨hsilent (e.above number), ⟨hline, (e.behind number).property.1⟩, ih (number + 1) hrest⟩

theorem pieces_apply (source : String) :
    pieces '\n' (e.apply source).toList = e.linesFrom 1 (pieces '\n' source.toList) := by
  rw [apply, String.toList_ofList]
  exact pieces_intercalate (e.linesFrom_ne_nil 1 (pieces_ne_nil '\n' source.toList))
    (e.not_mem_of_mem_linesFrom 1 fun _ => not_mem_of_mem_pieces)

/-- The lines that are gone through after an edit are those of before, in their new places. -/
theorem numberLines_linesFrom (number : Nat) (lines : List (List Char)) :
    numberLines (e.place number + 1) (e.linesFrom (number + 1) lines) =
      (numberLines (number + 1) lines).map (·.renumber e.place) := by
  induction lines generalizing number with
  | nil => exact numberLines_silent _ e.below
  | cons line rest ih =>
    rw [linesFrom, numberLines_append, numberLines_silent, List.nil_append, List.length_map,
      ← place_succ, numberLines, numberLines]
    -- What stands behind a line is silent, so the line says what it said.
    rw [lineText_append_silent, ih (number + 1)]
    split <;> rfl

theorem sourceLines_apply (source : String) :
    sourceLines (e.apply source).toList =
      (sourceLines source.toList).map (·.renumber e.place) := by
  rw [sourceLines, pieces_apply]
  exact e.numberLines_linesFrom 0 (pieces '\n' source.toList)

/-- What is wrong with an edited source text was wrong with it before, with or without a line. -/
theorem assemble_apply (source : String) (base : Int) :
    assemble (e.apply source) base = (assemble source base).mapError (·.renumber e.place) := by
  rw [assemble_eq, sourceLines_apply, assembleLines_renumber, ← assemble_eq]

end Edit

/-- **Comments and empty lines say nothing.** An edited source text gives the same rows, and so the
same image, exactly if there are any. A complaint stays the same and is about the line where it
stands now. -/
theorem assemble_edited (e : Edit) (source : String) (base : Int) :
    (∀ a, assemble (e.apply source) base = .ok a ↔ assemble source base = .ok a) ∧
    ∀ number complaint, assemble source base = .error (.atLine number complaint) →
      assemble (e.apply source) base =
        .error (.atLine (number + e.addedAbove number) complaint) := by
  rw [e.assemble_apply]
  refine ⟨fun a => mapError_ok_iff, fun number complaint h => ?_⟩
  rw [h]
  rfl

/-- A remark on top, one behind the first line, and an empty line below it. -/
def remarks : Edit where
  above
    | 1 => [⟨"; setup".toList, by decide⟩]
    | 2 => [⟨" \t".toList, by decide⟩]
    | _ => []
  behind
    | 1 => ⟨" ; clear".toList, by decide⟩
    | _ => ⟨[], by decide⟩
  below := []

theorem assemble_edited_remarks :
    remarks.apply "CLS\n.dw zzz" = "; setup\nCLS ; clear\n \t\n.dw zzz" ∧
      assemble "CLS\n.dw zzz" 0x200 = .error (.atLine 2 (.unresolved "zzz".toList)) ∧
      assemble (remarks.apply "CLS\n.dw zzz") 0x200 =
        .error (.atLine 4 (.unresolved "zzz".toList)) := by
  have h : assemble "CLS\n.dw zzz" 0x200 = .error (.atLine 2 (.unresolved "zzz".toList)) := by rfl
  exact ⟨by rfl, h, (assemble_edited remarks _ _).2 _ _ h⟩

end ChipEight.Assembly
