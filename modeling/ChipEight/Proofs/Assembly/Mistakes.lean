import ChipEight.Proofs.Assembly.Passes

/-!
# Which mistakes are reported, and where

A source text is refused for its first mistake, those that the first pass meets before all others.
A complaint is about a line that has something on it.

**Theorem (`assemble_reports`).** What stops the assembly of a source text is exactly what `Mistake`
says. A complaint has the number of a line with something on it before a comment.

Not every mistake is a complaint. The operand of an origin is read without a thought for the line it
stands on, and if it is no integer, its own error is all that is said (`assemble_badOrigin`), while
the same operand of a directive for data is reported with its line. The other two mistakes without a
line are about the limits of integers and of memory: an origin that is too far away, and a complaint
about a value that is too long to be written.
-/

namespace ChipEight.Assembly

open Text

/-! ## Lines with something on them -/

/-- A source text has a line with a number, counted from one, and with something on it besides
blanks before its comment. -/
def HasLine (source : List Char) (number : Nat) : Prop :=
  ∃ k raw, number = k + 1 ∧ (pieces '\n' source)[k]? = some raw ∧
    ∃ c ∈ raw.takeWhile (· ≠ ';'), isBlank c = false

theorem exists_of_mem_numberLines {line : SourceLine} {raws : List (List Char)} {number : Nat}
    (h : line ∈ numberLines number raws) :
    ∃ k raw, line.number = number + k ∧ raws[k]? = some raw ∧ lineText raw ≠ [] := by
  induction raws generalizing number with
  | nil => cases h
  | cons raw rest ih =>
    have hlater (hmem : line ∈ numberLines (number + 1) rest) :
        ∃ k found, line.number = number + k ∧ (raw :: rest)[k]? = some found ∧
          lineText found ≠ [] := by
      obtain ⟨k, found, hnumber, hfound, hne⟩ := ih hmem
      exact ⟨k + 1, found, by omega, hfound, hne⟩
    unfold numberLines at h
    dsimp only at h
    split at h
    · exact hlater h
    · next hne =>
      rcases List.mem_cons.1 h with rfl | hmem
      · exact ⟨0, raw, rfl, rfl, fun hnil => hne (by rw [hnil]; rfl)⟩
      · exact hlater hmem

/-- The lines that are gone through are lines of the source text with something on them. -/
theorem hasLine_of_mem {source : List Char} {line : SourceLine} (h : line ∈ sourceLines source) :
    HasLine source line.number := by
  obtain ⟨k, raw, hnumber, hraw, hne⟩ := exists_of_mem_numberLines h
  refine ⟨k, raw, by omega, hraw, ?_⟩
  rw [lineText, Ne, trim_eq_nil] at hne
  simpa only [not_forall, exists_prop, Bool.not_eq_true] using hne

/-! ## The first pass -/

/-- How the first pass is stopped at a line. -/
inductive LayoutFails (l : Layout) (line : SourceLine) : Error → Prop
  | duplicate {name : List Char} {address : Int}
      (statement : Statement.ofText line.text = .label name)
      (defined : l.labels.lookup name = some address) :
      LayoutFails l line (.atLine line.number (.duplicateLabel name))
  /-- The operand of an origin is no integer. Nothing is said about the line. -/
  | badOrigin {operand : List Char} {cause : BadInteger}
      (statement : Statement.ofText line.text = .origin operand)
      (reads : readImmediate operand = .error cause) : LayoutFails l line (.badOrigin cause)
  | backwards {operand : List Char} {target : Int}
      (statement : Statement.ofText line.text = .origin operand)
      (reads : readImmediate operand = .ok target) (back : target < l.address) :
      LayoutFails l line (.atLine line.number (.backwards target l.address))

theorem step_eq_error {l : Layout} {line : SourceLine} {e : Error} :
    l.step line = .error e ↔ LayoutFails l line e := by
  constructor
  · intro h
    unfold Layout.step at h
    split at h
    -- The cases of the definition: a label, an origin, and everything else.
    case h_1 name statement =>
      split at h
      · next hdefined =>
        obtain ⟨address, haddress⟩ := Option.isSome_iff_exists.1 hdefined
        cases h
        exact .duplicate statement haddress
      · cases h
    case h_2 operand statement =>
      split at h
      · next reads =>
        cases h
        exact .badOrigin statement reads
      · next reads =>
        split at h
        · next back =>
          cases h
          exact .backwards statement reads back
        · cases h
    case h_3 => cases h
  · intro h
    cases h with
    | duplicate statement defined => simp [Layout.step, statement, defined]
    | badOrigin statement reads => simp [Layout.step, statement, reads]
    | backwards statement reads back => simp [Layout.step, statement, reads, back]

/-- The first pass is stopped by the first line that stops it. -/
theorem scan_eq_error {lines : List SourceLine} {l : Layout} {e : Error} :
    l.scan lines = .error e ↔ ∃ before line after here, lines = before ++ line :: after ∧
      l.scan before = .ok here ∧ LayoutFails here line e := by
  constructor
  · intro h
    induction lines generalizing l with
    | nil => cases h
    | cons line rest ih =>
      rcases bind_error_iff.1 h with hstep | ⟨next, hstep, hrest⟩
      · exact ⟨[], line, rest, l, rfl, rfl, step_eq_error.1 hstep⟩
      -- The mistake stands in the rest, and this line is one more before it.
      · obtain ⟨before, found, after, here, rfl, hbefore, hfails⟩ := ih hrest
        have hreaches : l.scan (line :: before) = .ok here :=
          bind_ok_iff.2 ⟨next, hstep, hbefore⟩
        exact ⟨line :: before, found, after, here, rfl, hreaches, hfails⟩
  · rintro ⟨before, line, after, here, rfl, hbefore, hfails⟩
    rw [scan_append, ok_bind hbefore]
    exact bind_error_iff.2 (.inl (step_eq_error.2 hfails))

/-! ## The second pass -/

/-- There is room for everything from zero up to the limit. -/
theorem roomForRun_eq_error {count : Int} {cause : RoomError} (h0 : 0 ≤ count)
    (h : roomForRun count = .error cause) : roomLimit < count := by
  have hlimit : roomLimit < indexLimit - headerSize := by decide
  have hheader : (0 : Int) ≤ headerSize := by decide
  -- A run up to the limit is neither too large for an index nor for memory.
  by_contra hle
  have hfits : fitsIndex count = true := by
    simp only [fitsIndex, Bool.and_eq_true, decide_eq_true_eq]
    omega
  rw [roomForRun, if_neg (by omega), roomFor, if_pos hfits, if_neg (by omega), if_neg hle] at h
  cases h

/-- How the second pass is stopped at a line that it reaches at an address. -/
inductive RowFails (labels : Labels) (address : Int) (line : SourceLine) : Error → Prop
  /-- There is no room for the zeros up to an origin. -/
  | noRoom {operand : List Char} {target : Int} {cause : RoomError}
      (statement : Statement.ofText line.text = .origin operand)
      (reads : readImmediate operand = .ok target) (far : roomLimit < target - address)
      (refused : roomForRun (target - address) = .error cause) :
      RowFails labels address line (.noRoom cause)
  | complaint {complaint : Complaint} (content : (Statement.ofText line.text).isContent = true)
      (emits : (Statement.ofText line.text).emit labels = .error complaint)
      (writable : complaint.isWritable = true) :
      RowFails labels address line (.atLine line.number complaint)
  /-- The value that the complaint names is too long to be written. -/
  | unwritable {complaint : Complaint} (content : (Statement.ofText line.text).isContent = true)
      (emits : (Statement.ofText line.text).emit labels = .error complaint)
      (long : complaint.isWritable = false) : RowFails labels address line .unwritable

section Row

variable {labels : Labels} {line : SourceLine} {l next last : Layout} {e : Error}

theorem rowAt?_eq_error (h : Goes l line next) :
    rowAt? labels l.address line = .error e ↔ RowFails labels l.address line e := by
  constructor
  · intro hrow
    cases h with
    | label statement =>
      rw [rowAt?_label statement] at hrow
      cases hrow
    | origin statement reads forward =>
      simp only [rowAt?, statement, reads] at hrow
      split at hrow
      · next refused =>
        cases hrow
        -- The first pass refused to go backwards, so the run is not negative.
        exact .noRoom statement reads (roomForRun_eq_error (by omega) refused) refused
      · cases hrow
    | content content =>
      rw [rowAt?_of_content content] at hrow
      split at hrow
      · next complaint emits =>
        cases hrow
        unfold Error.ofComplaint
        split
        · exact .complaint content emits (by assumption)
        · exact .unwritable content emits (Bool.eq_false_iff.2 (by assumption))
      · cases hrow
  · intro hfails
    cases hfails with
    | noRoom statement reads far refused => simp only [rowAt?, statement, reads, refused]
    | complaint content emits writable =>
      simp only [rowAt?_of_content content, emits, Error.ofComplaint, writable, if_true]
    | unwritable content emits long =>
      simp [rowAt?_of_content content, emits, Error.ofComplaint, long]

/-- The second pass is stopped by the first line that stops it. It comes to each line at the address
at which the first pass came to it. -/
theorem rowsFrom_eq_error {lines : List SourceLine} (hscan : l.scan lines = .ok last) :
    rowsFrom labels l.address lines = .error e ↔
      ∃ before line after here earlier, lines = before ++ line :: after ∧
        l.scan before = .ok here ∧ rowsFrom labels l.address before = .ok earlier ∧
        RowFails labels here.address line e := by
  induction lines generalizing l with
  | nil =>
    refine ⟨fun h => (by cases h), ?_⟩
    rintro ⟨before, _, _, _, _, hsplit, -⟩
    cases before <;> cases hsplit
  | cons first rest ih =>
    obtain ⟨next, hstep, hrest⟩ := bind_ok_iff.1 hscan
    have hgoes := goes_of_step hstep
    rw [rowsFrom_cons_eq_error]
    constructor
    · rintro (hrow | ⟨row, hrow, hlater⟩)
      · exact ⟨[], first, rest, l, [], rfl, rfl, rfl, (rowAt?_eq_error hgoes).1 hrow⟩
      · rw [← hgoes.address_eq hrow] at hlater
        obtain ⟨before, line, after, here, earlier, rfl, hbefore, hearlier, hfails⟩ :=
          (ih hrest).1 hlater
        rw [hgoes.address_eq hrow] at hearlier
        exact ⟨first :: before, line, after, here, _, rfl, bind_ok_iff.2 ⟨next, hstep, hbefore⟩,
          rowsFrom_cons_eq_ok.2 ⟨row, earlier, hrow, hearlier, rfl⟩, hfails⟩
    · rintro ⟨before, line, after, here, earlier, hsplit, hbefore, hearlier, hfails⟩
      cases before with
      | nil =>
        cases hsplit
        cases hbefore
        exact .inl ((rowAt?_eq_error hgoes).2 hfails)
      | cons x before =>
        cases hsplit
        obtain ⟨next', hstep', hbefore'⟩ := bind_ok_iff.1 hbefore
        cases hstep.symm.trans hstep'
        obtain ⟨row, later, hrow, hlater, -⟩ := rowsFrom_cons_eq_ok.1 hearlier
        refine .inr ⟨row, hrow, ?_⟩
        -- Both passes move on from this line by the same number of bytes.
        rw [← hgoes.address_eq hrow] at hlater ⊢
        exact (ih hrest).2 ⟨before, line, after, here, later, rfl, hbefore', hlater, hfails⟩

end Row

/-! ## Both passes -/

/-- The mistake for which the lines of a source text are refused. -/
inductive Mistake (lines : List SourceLine) (base : Int) : Error → Prop
  /-- The first pass comes to a line that stops it. -/
  | layout {before after : List SourceLine} {line : SourceLine} {here : Layout} {e : Error}
      (split : lines = before ++ line :: after)
      (reaches : (Layout.mk [] base).scan before = .ok here) (fails : LayoutFails here line e) :
      Mistake lines base e
  /-- The first pass goes through, and the second one comes to a line that stops it. -/
  | row {before after : List SourceLine} {line : SourceLine} {here last : Layout}
      {earlier : List Row} {e : Error} (split : lines = before ++ line :: after)
      (passes : (Layout.mk [] base).scan lines = .ok last)
      (reaches : (Layout.mk [] base).scan before = .ok here)
      (emits : rowsFrom last.labels base before = .ok earlier)
      (fails : RowFails last.labels here.address line e) : Mistake lines base e

theorem assemble_eq_error {source : String} {base : Int} {e : Error} :
    assemble source base = .error e ↔ Mistake (sourceLines source.toList) base e := by
  constructor
  · intro h
    rcases bind_error_iff.1 h with hscan | ⟨last, hscan, h⟩
    · obtain ⟨before, line, after, here, hsplit, hreaches, hfails⟩ := scan_eq_error.1 hscan
      exact .layout hsplit hreaches hfails
    · rcases bind_error_iff.1 h with hrows | ⟨_, -, hpure⟩
      · obtain ⟨before, line, after, here, earlier, hsplit, hreaches, hemits, hfails⟩ :=
          (rowsFrom_eq_error hscan).1 hrows
        exact .row hsplit hscan hreaches hemits hfails
      · cases hpure
  · intro h
    cases h with
    | layout split reaches fails =>
      exact bind_error_iff.2 (.inl (scan_eq_error.2 ⟨_, _, _, _, split, reaches, fails⟩))
    | row split passes reaches emits fails =>
      refine bind_error_iff.2 (.inr ⟨_, passes, bind_error_iff.2 (.inl ?_)⟩)
      exact (rowsFrom_eq_error passes).2 ⟨_, _, _, _, _, split, reaches, emits, fails⟩

/-- **What is reported.** A source text is refused exactly for the mistake that `Mistake` says. If
that is a complaint, its number is that of a line with something on it. It is no complaint if the
first pass comes to an origin whose operand is no integer; then nothing is said about the line. -/
theorem assemble_reports (source : String) (base : Int) :
    (∀ e, assemble source base = .error e ↔ Mistake (sourceLines source.toList) base e) ∧
    (∀ number complaint, assemble source base = .error (.atLine number complaint) →
      HasLine source.toList number) ∧
    ∀ cause, assemble source base = .error (.badOrigin cause) ↔
      ∃ before line after here operand, sourceLines source.toList = before ++ line :: after ∧
        (Layout.mk [] base).scan before = .ok here ∧
        Statement.ofText line.text = .origin operand ∧ readImmediate operand = .error cause := by
  refine ⟨fun e => assemble_eq_error, fun number complaint h => ?_, fun cause => ?_⟩
  · have hmem {before after : List SourceLine} {line : SourceLine}
        (split : sourceLines source.toList = before ++ line :: after) :
        HasLine source.toList line.number := by
      refine hasLine_of_mem ?_
      rw [split]
      exact List.mem_append_right before List.mem_cons_self
    -- Either pass reports the number of the line that it is at.
    cases assemble_eq_error.1 h with
    | layout split reaches fails => cases fails <;> exact hmem split
    | row split passes reaches emits fails => cases fails; exact hmem split
  · rw [assemble_eq_error]
    constructor
    · intro h
      cases h with
      | layout split reaches fails =>
        cases fails with
        | badOrigin statement reads =>
          exact ⟨_, _, _, _, _, split, reaches, statement, reads⟩
      | row split passes reaches emits fails => cases fails
    · rintro ⟨before, line, after, here, operand, split, reaches, statement, reads⟩
      exact .layout split reaches (.badOrigin statement reads)

/-- Lines without anything on them count, though nothing is ever said about them. -/
theorem assemble_reports_thirdLine :
    assemble "; data\n\n.dw zzz" 0x200 = .error (.atLine 3 (.unresolved "zzz".toList)) ∧
      HasLine "; data\n\n.dw zzz".toList 3 := by
  have h : assemble "; data\n\n.dw zzz" 0x200 =
      .error (.atLine 3 (.unresolved "zzz".toList)) := by rfl
  exact ⟨h, (assemble_reports _ _).2.1 _ _ h⟩

/-- **A mistake without a line.** The operand of an origin is not reported as the same operand of a
directive for data is. -/
theorem assemble_badOrigin :
    (∃ cause, assemble ".org zzz" 0x200 = .error (.badOrigin cause)) ∧
      assemble ".dw zzz" 0x200 = .error (.atLine 1 (.unresolved "zzz".toList)) := by
  have horigin : assemble ".org zzz" 0x200 =
      .error (.badOrigin ⟨.marked, "zzz".toList, .malformed⟩) := by rfl
  exact ⟨⟨_, horigin⟩, by rfl⟩

end ChipEight.Assembly
