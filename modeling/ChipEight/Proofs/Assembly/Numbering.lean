import ChipEight.Proofs.Assembly.Passes

/-!
# The numbers of lines

Neither pass looks at the number of a line but to report it. So lines with other numbers are
assembled as before, and what is wrong with them is said of the other number
(`assembleLines_renumber`): the same complaint, of the first line that gives a reason for one.

Lines that stand further down in a source text, and lines that come after another source text, are
the same lines with other numbers (`numberLines_shift`, `sourceLines_append`).
-/

namespace ChipEight.Assembly

open Text

/-- The line with another number. -/
def SourceLine.renumber (f : Nat → Nat) (line : SourceLine) : SourceLine :=
  { line with number := f line.number }

/-- The error about the line with another number, if it is about a line. -/
def Error.renumber (f : Nat → Nat) : Error → Error
  | .atLine number complaint => .atLine (f number) complaint
  | e => e

theorem SourceLine.renumber_text (f : Nat → Nat) (line : SourceLine) :
    (line.renumber f).text = line.text := rfl

theorem Error.renumber_ofComplaint (f : Nat → Nat) (number : Nat) (complaint : Complaint) :
    (Error.ofComplaint number complaint).renumber f = .ofComplaint (f number) complaint := by
  unfold Error.ofComplaint
  split <;> rfl

/-! ## Both passes -/

section Passes

variable (f : Nat → Nat) (line : SourceLine) (lines : List SourceLine)

theorem step_renumber (l : Layout) :
    l.step (line.renumber f) = (l.step line).mapError (·.renumber f) := by
  unfold Layout.step
  rw [SourceLine.renumber_text]
  cases Statement.ofText line.text with
  | label name =>
    dsimp only
    split <;> rfl
  | origin operand =>
    dsimp only
    cases readImmediate operand with
    | error cause => rfl
    | ok target =>
      dsimp only
      split <;> rfl
  | bytes | words | operation => rfl

theorem scan_renumber (l : Layout) :
    l.scan (lines.map (·.renumber f)) = (l.scan lines).mapError (·.renumber f) := by
  induction lines generalizing l with
  | nil => rfl
  | cons line rest ih =>
    rw [List.map_cons, Layout.scan, Layout.scan, mapError_bind, step_renumber]
    simp only [ih]

theorem rowAt?_renumber (labels : Labels) (address : Int) :
    rowAt? labels address (line.renumber f) =
      (rowAt? labels address line).mapError (·.renumber f) := by
  cases hstatement : Statement.ofText line.text with
  | label name =>
    have hother : Statement.ofText (line.renumber f).text = .label name := hstatement
    rw [rowAt?_label hstatement, rowAt?_label hother]
    rfl
  | origin operand =>
    simp only [rowAt?, SourceLine.renumber_text, hstatement]
    cases readImmediate operand with
    | error cause => rfl
    | ok target =>
      dsimp only
      cases roomForRun (target - address) <;> rfl
  | bytes | words | operation =>
    have hcontent : (Statement.ofText line.text).isContent = true := by
      rw [hstatement]
      rfl
    have hother : (Statement.ofText (line.renumber f).text).isContent = true := hcontent
    rw [rowAt?_of_content hcontent, rowAt?_of_content hother, SourceLine.renumber_text]
    -- The number of the line is put into a complaint and nowhere else.
    cases (Statement.ofText line.text).emit labels with
    | error complaint => exact congrArg Except.error (Error.renumber_ofComplaint f _ _).symm
    | ok bytes => rfl

theorem rowsFrom_renumber (labels : Labels) (address : Int) :
    rowsFrom labels address (lines.map (·.renumber f)) =
      (rowsFrom labels address lines).mapError (·.renumber f) := by
  induction lines generalizing address with
  | nil => rfl
  | cons line rest ih =>
    rw [List.map_cons, rowsFrom, rowsFrom, mapError_bind, rowAt?_renumber]
    congr 1
    funext row
    cases row with
    | none => exact ih address
    | some row =>
      dsimp only
      rw [mapError_bind, ih row.after]
      rfl

end Passes

/-- Assemble lines. -/
def assembleLines (lines : List SourceLine) (base : Int) : Except Error Assembled := do
  let layout ← (Layout.mk [] base).scan lines
  let rows ← rowsFrom layout.labels base lines
  return ⟨layout.labels, rows⟩

theorem assemble_eq (source : String) (base : Int) :
    assemble source base = assembleLines (sourceLines source.toList) base := rfl

theorem assembleLines_eq_ok {lines : List SourceLine} {base : Int} {a : Assembled} :
    assembleLines lines base = .ok a ↔ ∃ last, (Layout.mk [] base).scan lines = .ok last ∧
      last.labels = a.labels ∧ rowsFrom a.labels base lines = .ok a.rows := by
  constructor
  · intro h
    obtain ⟨last, hscan, h⟩ := bind_ok_iff.1 h
    obtain ⟨rows, hrows, h⟩ := bind_ok_iff.1 h
    cases h
    exact ⟨last, hscan, rfl, hrows⟩
  · rintro ⟨last, hscan, hlabels, hrows⟩
    rw [assembleLines, ok_bind hscan, hlabels, ok_bind hrows]
    rfl

/-- **Numbers only say where.** -/
theorem assembleLines_renumber (f : Nat → Nat) (lines : List SourceLine) (base : Int) :
    assembleLines (lines.map (·.renumber f)) base =
      (assembleLines lines base).mapError (·.renumber f) := by
  unfold assembleLines
  rw [mapError_bind, scan_renumber]
  congr 1
  funext layout
  rw [mapError_bind, rowsFrom_renumber]
  rfl

/-! ## Lines further down -/

theorem numberLines_append (number : Nat) (front back : List (List Char)) :
    numberLines number (front ++ back) =
      numberLines number front ++ numberLines (number + front.length) back := by
  induction front generalizing number with
  | nil => rfl
  | cons line rest ih =>
    have hnumber : number + 1 + rest.length = number + (rest.length + 1) := by omega
    simp only [List.cons_append, numberLines, ih (number + 1), List.length_cons, hnumber]
    split <;> rfl

theorem numberLines_shift (number count : Nat) (lines : List (List Char)) :
    numberLines (number + count) lines =
      (numberLines number lines).map (·.renumber (· + count)) := by
  induction lines generalizing number with
  | nil => rfl
  | cons line rest ih =>
    have hnumber : number + count + 1 = number + 1 + count := by omega
    simp only [numberLines, hnumber, ih (number + 1)]
    split <;> rfl

/-- What comes after a source text and a line break keeps its lines, all of them further down. -/
theorem sourceLines_append (front back : List Char) :
    sourceLines (front ++ '\n' :: back) = sourceLines front ++
      (sourceLines back).map (·.renumber (· + (pieces '\n' front).length)) := by
  unfold sourceLines
  rw [pieces_append, numberLines_append, numberLines_shift]

end ChipEight.Assembly
