import ChipEight.Proofs.Assembly.Numbering

/-!
# Joining source texts

**Theorem (`assemble_append`).** Two source texts, the second of which is assembled for the address
at which the image of the first one ends, can be assembled as one text, and its image is the images
of both. They must be apart: no label is defined in both, and no operand of one is spelled as a
label of the other.

The first pass has come to the same address at the seam, because it counts what the second pass
emits (`scan_address`). From there on it goes as it went before, only behind the labels of the first
text (`scan_behind`). What a statement emits depends on nothing but what its operands are looked up
to (`emit_of_agree`), so it is enough that both tables together give every operand what one of them
gave it: the label of its own text, or none, so that it is still read as an integer.
-/

namespace ChipEight.Assembly

open Text

/-! ## Names and tokens -/

/-- The name that a statement defines. -/
def Statement.names : Statement → List (List Char)
  | .label name => [name]
  | _ => []

/-- The labels that are defined on lines. -/
def namesOf (lines : List SourceLine) : List (List Char) :=
  lines.flatMap fun line => (Statement.ofText line.text).names

/-- The operands on lines. -/
def tokensOf (lines : List SourceLine) : List (List Char) :=
  lines.flatMap fun line => (Statement.ofText line.text).tokens

theorem trim_of_mem_tokensOf {lines : List SourceLine} {token : List Char}
    (h : token ∈ tokensOf lines) : trim token = token := by
  obtain ⟨line, -, hmem⟩ := List.mem_flatMap.1 h
  exact trim_of_mem_tokens hmem

theorem names_of_content {statement : Statement} (h : statement.isContent = true) :
    statement.names = [] := by
  cases statement with
  | label | origin => cases h
  | bytes | words | operation => rfl

/-- No label is defined on lines of both, and no operand on lines of one is spelled as a label of
the other. -/
structure Apart (first second : List SourceLine) : Prop where
  names : ∀ name ∈ namesOf first, name ∉ namesOf second
  tokens_first : ∀ token ∈ tokensOf first, token ∉ namesOf second
  tokens_second : ∀ token ∈ tokensOf second, token ∉ namesOf first

theorem namesOf_renumber (f : Nat → Nat) (lines : List SourceLine) :
    namesOf (lines.map (·.renumber f)) = namesOf lines := List.flatMap_map ..

theorem tokensOf_renumber (f : Nat → Nat) (lines : List SourceLine) :
    tokensOf (lines.map (·.renumber f)) = tokensOf lines := List.flatMap_map ..

theorem Apart.renumber {first second : List SourceLine} (h : Apart first second) (f : Nat → Nat) :
    Apart first (second.map (·.renumber f)) := by
  constructor
  · rw [namesOf_renumber]
    exact h.names
  · rw [namesOf_renumber]
    exact h.tokens_first
  · rw [tokensOf_renumber]
    exact h.tokens_second

/-! ## Tables that agree -/

/-- The tables give the tokens the same addresses, or none. -/
def Agree (labels labels' : Labels) (tokens : List (List Char)) : Prop :=
  ∀ token ∈ tokens, labels.lookup (trim token) = labels'.lookup (trim token)

section Agree

variable {labels labels' : Labels} {bits : Nat} {token : List Char} {tokens : List (List Char)}

theorem resolve_of_lookup (h : labels.lookup (trim token) = labels'.lookup (trim token)) :
    resolve labels bits token = resolve labels' bits token := by
  simp only [resolve, h]

theorem resolveAll_of_agree (h : Agree labels labels' tokens) :
    resolveAll labels bits tokens = resolveAll labels' bits tokens := by
  induction tokens with
  | nil => rfl
  | cons token rest ih =>
    obtain ⟨htoken, hrest⟩ := List.forall_mem_cons.1 h
    rw [resolveAll, resolveAll, resolve_of_lookup htoken, ih hrest]

theorem SaidBy.of_lookup {operand : Operand} (hsaid : SaidBy labels token operand)
    (h : labels.lookup (trim token) = labels'.lookup (trim token)) :
    SaidBy labels' token operand := by
  have hvalue : valueOf? labels token = valueOf? labels' token := by
    unfold valueOf?
    rw [h]
  cases hsaid with
  | register named => exact .register named
  | name same => exact .name same
  | byte stands low high wraps => exact .byte (hvalue ▸ stands) low high wraps
  | address stands => exact .address (hvalue ▸ stands)
  | count stands => exact .count (hvalue ▸ stands)

theorem Operation.StandsFor.of_agree {mnemonic rest : List Char} {i : Instruction}
    (hstands : (Operation.mk labels mnemonic rest).StandsFor i)
    (h : Agree labels labels' (splitOperands rest)) :
    (Operation.mk labels' mnemonic rest).StandsFor i := by
  obtain ⟨operands, hwritten, hreads⟩ := hstands.operands
  refine ⟨hstands.known, hstands.mnemonic, ⟨operands, hwritten, hreads.length_eq, ?_⟩, hstands.byte⟩
  intro k operand hk
  have hlt : k < (splitOperands rest).length := by
    have hcount : (splitOperands rest).length = operands.length := hreads.length_eq
    rw [hcount]
    exact (List.getElem?_eq_some_iff.1 hk).1
  -- Every operand that is written down is one of those the tables agree on.
  have hmem : (splitOperands rest).getD k [] ∈ splitOperands rest := by
    rw [List.getD_eq_getElem?_getD, List.getElem?_eq_getElem hlt]
    exact List.getElem_mem hlt
  exact (hreads.said k operand hk).of_lookup (h _ hmem)

/-- What a statement emits depends on the labels of its operands only. -/
theorem emit_of_agree {statement : Statement} {bytes : List UInt8}
    (hemit : statement.emit labels = .ok bytes) (h : Agree labels labels' statement.tokens) :
    statement.emit labels' = .ok bytes := by
  cases statement with
  | label name | origin operand => exact hemit
  | bytes operands | words operands =>
    have hoperands : Agree labels labels' operands := h
    rw [Statement.emit, resolveAll_of_agree hoperands] at hemit
    exact hemit
  | operation mnemonic rest =>
    obtain ⟨i, hi, hbytes⟩ := bind_ok_iff.1 hemit
    have hstands := (Operation.instruction_stands hi).of_agree h
    exact bind_ok_iff.2 ⟨i, hstands.instruction_eq, hbytes⟩

theorem rowAt?_of_agree {address : Int} {line : SourceLine} {row : Option Row}
    (hrow : rowAt? labels address line = .ok row)
    (h : Agree labels labels' (Statement.ofText line.text).tokens) :
    rowAt? labels' address line = .ok row := by
  cases hstatement : Statement.ofText line.text with
  | label name | origin operand =>
    unfold rowAt? at hrow ⊢
    rw [hstatement] at hrow ⊢
    exact hrow
  | bytes | words | operation =>
    have hcontent : (Statement.ofText line.text).isContent = true := by
      rw [hstatement]
      rfl
    obtain ⟨bytes, hemit, rfl⟩ := rowAt?_content hcontent hrow
    rw [rowAt?_of_content hcontent, emit_of_agree hemit h]

theorem rowsFrom_of_agree {address : Int} {lines : List SourceLine} {rows : List Row}
    (hrows : rowsFrom labels address lines = .ok rows)
    (h : Agree labels labels' (tokensOf lines)) : rowsFrom labels' address lines = .ok rows := by
  induction lines generalizing address rows with
  | nil => exact hrows
  | cons line rest ih =>
    obtain ⟨hline, hrest⟩ := List.forall_mem_append.1 h
    obtain ⟨row, later, hrow, hlater, rfl⟩ := rowsFrom_cons_eq_ok.1 hrows
    exact rowsFrom_cons_eq_ok.2 ⟨row, later, rowAt?_of_agree hrow hline, ih hlater hrest, rfl⟩

end Agree

/-! ## Behind other labels -/

/-- As far as before, with other labels before its own. -/
def Layout.behind (earlier : Labels) (l : Layout) : Layout :=
  { l with labels := earlier ++ l.labels }

section Behind

variable {l next last : Layout} {line : SourceLine} {lines : List SourceLine} {earlier : Labels}

theorem Goes.step_eq (h : Goes l line next) : l.step line = .ok next := by
  cases h with
  | label statement new => simp [Layout.step, statement, new]
  | origin statement reads forward => simp [Layout.step, statement, reads, Int.not_lt.2 forward]
  | content content => exact step_of_content content l

theorem Goes.behind (h : Goes l line next)
    (hnew : ∀ name ∈ (Statement.ofText line.text).names, earlier.lookup name = none) :
    Goes (l.behind earlier) line (next.behind earlier) := by
  cases h with
  | @label name statement new =>
    have hearlier : earlier.lookup name = none := by
      rw [statement] at hnew
      exact hnew name (List.mem_singleton_self name)
    -- The name is new to the labels of this text and to those of the other one.
    have hnone : (l.behind earlier).labels.lookup name = none := by
      rw [Layout.behind, List.lookup_append, hearlier, new]
      rfl
    have hgoes := Goes.label statement hnone
    rwa [Layout.behind, List.append_assoc] at hgoes
  | origin statement reads forward => exact .origin statement reads forward
  | content content => exact .content content

/-- The first pass goes behind other labels as it goes without them, if it defines none of them. -/
theorem scan_behind (hscan : l.scan lines = .ok last)
    (hnew : ∀ name ∈ namesOf lines, earlier.lookup name = none) :
    (l.behind earlier).scan lines = .ok (last.behind earlier) := by
  induction lines generalizing l with
  | nil =>
    cases hscan
    rfl
  | cons line rest ih =>
    obtain ⟨hline, hrest⟩ := List.forall_mem_append.1 hnew
    obtain ⟨next, hnext, hlast⟩ := bind_ok_iff.1 hscan
    have hgoes := (goes_of_step hnext).behind hline
    exact bind_ok_iff.2 ⟨_, hgoes.step_eq, ih hlast hrest⟩

theorem names_of_goes (h : Goes l line next) :
    next.labels.map (·.1) = l.labels.map (·.1) ++ (Statement.ofText line.text).names := by
  cases h with
  | label statement =>
    rw [statement, List.map_append]
    rfl
  | origin statement =>
    rw [statement]
    exact (List.append_nil _).symm
  | content content => rw [names_of_content content, List.append_nil]

/-- The first pass puts down the labels that the lines define, in order. -/
theorem names_of_scan (hscan : l.scan lines = .ok last) :
    last.labels.map (·.1) = l.labels.map (·.1) ++ namesOf lines := by
  induction lines generalizing l with
  | nil =>
    cases hscan
    exact (List.append_nil _).symm
  | cons line rest ih =>
    obtain ⟨next, hnext, hlast⟩ := bind_ok_iff.1 hscan
    rw [ih hlast, names_of_goes (goes_of_step hnext), List.append_assoc]
    rfl

end Behind

theorem lookup_eq_none {labels : Labels} {name : List Char} (h : name ∉ labels.map (·.1)) :
    labels.lookup name = none := by
  refine List.lookup_eq_none_iff.2 fun label hlabel => bne_iff_ne.2 ?_
  rintro rfl
  exact h (List.mem_map_of_mem hlabel)

/-! ## Both texts -/

theorem rowsFrom_append {labels : Labels} {address : Int} {before after : List SourceLine}
    {earlier later : List Row} (hbefore : rowsFrom labels address before = .ok earlier)
    (hafter : rowsFrom labels (address + (earlier.flatMap Row.image).length) after = .ok later) :
    rowsFrom labels address (before ++ after) = .ok (earlier ++ later) := by
  induction before generalizing address earlier with
  | nil =>
    cases hbefore
    simpa using hafter
  | cons line rest ih =>
    obtain ⟨row, more, hrow, hmore, rfl⟩ := rowsFrom_cons_eq_ok.1 hbefore
    rw [List.flatMap_append, List.length_append, Int.natCast_add, ← Int.add_assoc] at hafter
    exact rowsFrom_cons_eq_ok.2 ⟨row, more ++ later, hrow, ih hmore hafter, List.append_assoc ..⟩

/-- What is assembled of two texts, one behind the other. -/
def Assembled.append (a b : Assembled) : Assembled := ⟨a.labels ++ b.labels, a.rows ++ b.rows⟩

instance : Append Assembled := ⟨Assembled.append⟩

theorem Assembled.image_append (a b : Assembled) : (a ++ b).image = a.image ++ b.image :=
  List.flatMap_append

section Both

variable {first second : List SourceLine} {base : Int} {a b : Assembled}

theorem lookup_of_not_mem {name : List Char} (ha : assembleLines first base = .ok a)
    (h : name ∉ namesOf first) : a.labels.lookup name = none := by
  obtain ⟨last, hscan, hlabels, -⟩ := assembleLines_eq_ok.1 ha
  refine lookup_eq_none ?_
  rwa [← hlabels, names_of_scan hscan]

theorem assembleLines_append (happart : Apart first second)
    (ha : assembleLines first base = .ok a)
    (hb : assembleLines second (base + a.image.length) = .ok b) :
    assembleLines (first ++ second) base = .ok (a ++ b) := by
  obtain ⟨here, hscan, hlabels, hrows⟩ := assembleLines_eq_ok.1 ha
  obtain ⟨last, hscan', hlabels', hrows'⟩ := assembleLines_eq_ok.1 hb
  -- The second text starts where the first one ends, with all its labels known.
  have hseam : here = (Layout.mk [] (base + a.image.length)).behind a.labels := by
    rw [Layout.behind, List.append_nil, ← hlabels, Assembled.image, ← scan_address hscan hrows]
  have hnew : ∀ name ∈ namesOf second, a.labels.lookup name = none := fun name hname =>
    lookup_of_not_mem ha fun hfirst => happart.names name hfirst hname
  -- Neither text spells a label of the other, so both look up what they looked up alone.
  have hfirst : Agree a.labels (a ++ b).labels (tokensOf first) := by
    intro token htoken
    have hnone := lookup_of_not_mem hb (happart.tokens_first token htoken)
    show _ = (a.labels ++ b.labels).lookup (trim token)
    rw [trim_of_mem_tokensOf htoken, List.lookup_append, hnone, Option.or_none]
  have hsecond : Agree b.labels (a ++ b).labels (tokensOf second) := by
    intro token htoken
    have hnone := lookup_of_not_mem ha (happart.tokens_second token htoken)
    show _ = (a.labels ++ b.labels).lookup (trim token)
    rw [trim_of_mem_tokensOf htoken, List.lookup_append, hnone, Option.none_or]
  refine assembleLines_eq_ok.2 ⟨last.behind a.labels, ?_, ?_, ?_⟩
  · rw [scan_append, ok_bind hscan, hseam]
    exact scan_behind hscan' hnew
  · exact congrArg (a.labels ++ ·) hlabels'
  · exact rowsFrom_append (rowsFrom_of_agree hrows hfirst) (rowsFrom_of_agree hrows' hsecond)

end Both

/-- **Assembly composes.** -/
theorem assemble_append {first second : String} {base : Int} {a b : Assembled}
    (ha : assemble first base = .ok a)
    (hb : assemble second (base + a.image.length) = .ok b)
    (happart : Apart (sourceLines first.toList) (sourceLines second.toList)) :
    assemble (first ++ "\n" ++ second) base = .ok (a ++ b) ∧
      (a ++ b).image = a.image ++ b.image := by
  have hjoined : (first ++ "\n" ++ second).toList = first.toList ++ '\n' :: second.toList := by simp
  refine ⟨?_, Assembled.image_append a b⟩
  rw [assemble_eq, hjoined, sourceLines_append]
  refine assembleLines_append (happart.renumber _) ha ?_
  rw [assembleLines_renumber]
  exact mapError_ok_iff.2 hb

/-- A loop, and data at an origin with a label. -/
theorem assemble_append_loop :
    ∃ a b, assemble "loop:\nJP loop" 0x200 = .ok a ∧
      assemble ".org 0x204\ndata:\n.dw data" (0x200 + a.image.length) = .ok b ∧
      assemble ("loop:\nJP loop" ++ "\n" ++ ".org 0x204\ndata:\n.dw data") 0x200 = .ok (a ++ b) ∧
      (a ++ b).image = [0x12, 0x00] ++ [0x00, 0x00, 0x02, 0x04] := by
  have ha : assemble "loop:\nJP loop" 0x200 = .ok ⟨[("loop".toList, 0x200)],
      [⟨0x200, 0, [0x12, 0x00], "JP loop".toList⟩]⟩ := by rfl
  have hb : assemble ".org 0x204\ndata:\n.dw data" 0x202 = .ok ⟨[("data".toList, 0x204)],
      [⟨0x202, 2, [], ".org 0x204".toList⟩, ⟨0x204, 0, [0x02, 0x04], ".dw data".toList⟩]⟩ := by rfl
  have happart : Apart (sourceLines "loop:\nJP loop".toList)
      (sourceLines ".org 0x204\ndata:\n.dw data".toList) :=
    ⟨by decide, by decide, by decide⟩
  exact ⟨_, _, ha, hb, assemble_append ha hb happart⟩

end ChipEight.Assembly
