import ChipEight.Proofs.Assembly.Joining
import ChipEight.Proofs.Text.Letters

/-!
# The case of letters in source texts

**Theorem (`assemble_switchCase`).** In a source text that defines no label, any letters may be
written in the other case. Either both texts are assembled, to the same image, or neither is, for
the same reason: a complaint has the number of the same line, and what it quotes from there differs
in the case of letters only.

Labels are set apart because they are compared as they are written. Everything else is read in small
letters or by functions that do not tell them from capital ones, and so every step on the way from
the text to its image commutes with writing the text in small letters: cutting it into lines
(`sourceLines_lower`), the statements on them (`ofText_lower`), values (`readImmediate_lower`),
instructions (`Operation.instruction_lower`) and both passes (`assembleLines_lower`). Two texts that
differ in case only are the same in small letters.
-/

namespace ChipEight.Assembly

open Text

/-! ## Small letters -/

/-- The line in small letters. -/
def SourceLine.lower (line : SourceLine) : SourceLine := { line with text := Text.lower line.text }

/-- The statement in small letters. -/
def Statement.lower : Statement → Statement
  | .label name => .label (Text.lower name)
  | .origin operand => .origin (Text.lower operand)
  | .bytes operands => .bytes (operands.map Text.lower)
  | .words operands => .words (operands.map Text.lower)
  | .operation mnemonic operands => .operation (Text.lower mnemonic) (Text.lower operands)

/-- The operation in small letters. -/
def Operation.lower (o : Operation) : Operation :=
  { o with mnemonic := Text.lower o.mnemonic, rest := Text.lower o.rest }

/-- The complaint about the text in small letters. -/
def Complaint.lower : Complaint → Complaint
  | .duplicateLabel name => .duplicateLabel (Text.lower name)
  | .unresolved token => .unresolved (Text.lower token)
  | .needsRegister mnemonic position => .needsRegister (Text.lower mnemonic) position
  | .operandCount mnemonic expected actual =>
    .operandCount (Text.lower mnemonic) expected actual
  | .unsupportedLoad operands => .unsupportedLoad (Text.lower operands)
  | .unknownMnemonic mnemonic => .unknownMnemonic (Text.lower mnemonic)
  | .backwards target current => .backwards target current
  | .outOfRange value bits => .outOfRange value bits
  | .offsetRegister => .offsetRegister

/-- The error about the text in small letters. -/
def Error.lower : Error → Error
  | .atLine number complaint => .atLine number complaint.lower
  | .badOrigin cause => .badOrigin { cause with text := Text.lower cause.text }
  | .noRoom cause => .noRoom cause
  | .unwritable => .unwritable

/-- The row of the line in small letters. -/
def Row.lower (row : Row) : Row := { row with text := Text.lower row.text }

/-! ## Lines and statements -/

theorem lineText_lower (line : List Char) : lineText (lower line) = lower (lineText line) := by
  have hmark (c : Char) : decide (c.toLower ≠ ';') = decide (c ≠ ';') :=
    decide_eq_decide.2 (not_congr (toLower_eq_iff rfl c))
  have htake := takeWhile_lower (p := fun c => c ≠ ';') hmark line
  rw [lineText, htake, trim_lower]
  rfl

theorem isEmpty_lower (cs : List Char) : (lower cs).isEmpty = cs.isEmpty := List.isEmpty_map

theorem numberLines_lower (number : Nat) (lines : List (List Char)) :
    numberLines number (lines.map lower) = (numberLines number lines).map (·.lower) := by
  induction lines generalizing number with
  | nil => rfl
  | cons line rest ih =>
    simp only [List.map_cons, numberLines, lineText_lower, isEmpty_lower, ih]
    split <;> rfl

theorem sourceLines_lower (source : List Char) :
    sourceLines (lower source) = (sourceLines source).map (·.lower) := by
  rw [sourceLines, pieces_lower rfl, numberLines_lower]
  rfl

theorem splitOperands_lower (cs : List Char) :
    splitOperands (lower cs) = (splitOperands cs).map lower := by
  rw [splitOperands, splitOperands, pieces_lower rfl, List.map_map]
  have htrim : trim ∘ lower = lower ∘ trim := funext trim_lower
  have hempty : (fun cs : List Char => !cs.isEmpty) ∘ lower = fun cs => !cs.isEmpty :=
    funext fun cs => congrArg not (isEmpty_lower cs)
  rw [htrim, ← List.map_map, List.filter_map, hempty]

theorem beginsWithName_lower (cs : List Char) (name : String) :
    beginsWithName (lower cs) name = beginsWithName cs name := by
  rw [beginsWithName, fold_lower]
  rfl

theorem isName_lower (cs : List Char) (name : String) :
    isName (lower cs) name = isName cs name := by
  rw [isName, fold_lower]
  rfl

theorem endsInColon_lower (text : List Char) :
    (lower text).getLast? = some ':' ↔ text.getLast? = some ':' := by
  rw [lower, List.getLast?_map]
  have hcolon (c : Char) : c.toLower = ':' ↔ c = ':' := toLower_eq_iff rfl c
  cases text.getLast? with
  | none => simp
  | some c => simpa using hcolon c

theorem ofText_lower (text : List Char) :
    Statement.ofText (lower text) = (Statement.ofText text).lower := by
  simp only [Statement.ofText, endsInColon_lower, beginsWithName_lower]
  split
  · rw [lower, ← List.map_dropLast]
    exact congrArg Statement.label (trim_lower text.dropLast)
  split
  · rw [lower, ← List.map_drop]
    rfl
  split
  · rw [lower, ← List.map_drop]
    exact congrArg Statement.bytes (splitOperands_lower _)
  split
  · rw [lower, ← List.map_drop]
    exact congrArg Statement.words (splitOperands_lower _)
  · rw [splitWord_lower]
    rfl

/-! ## Values -/

theorem radixOf_cons (c : Char) (rest : List Char) : radixOf ('0' :: c :: rest) =
    if c.toLower = 'x' then .hexadecimal else .marked := by
  have hx : c.toLower = 'x' ↔ c = 'x' ∨ c = 'X' := toLower_eq_letter 23 c
  simp only [hx]
  unfold radixOf
  split <;> simp_all

theorem radixOf_of_ne {c : Char} (hzero : c ≠ '0') (hminus : c ≠ '-') (rest : List Char) :
    radixOf (c :: rest) = .marked := by
  unfold radixOf
  split <;> simp_all

theorem radixOf_lower (cs : List Char) : radixOf (lower cs) = radixOf cs := by
  cases cs with
  | nil => rfl
  | cons c rest =>
    by_cases hzero : c = '0'
    · subst hzero
      cases rest with
      | nil => rfl
      | cons d more =>
        show radixOf ('0' :: d.toLower :: lower more) = _
        rw [radixOf_cons, radixOf_cons, toLower_toLower]
    · by_cases hminus : c = '-'
      · subst hminus
        rfl
      · have hzero' : c.toLower ≠ '0' := toLower_ne rfl hzero
        have hminus' : c.toLower ≠ '-' := toLower_ne rfl hminus
        rw [lower_cons, radixOf_of_ne hzero hminus, radixOf_of_ne hzero' hminus']

theorem readImmediate_lower (cs : List Char) :
    readImmediate (lower cs) =
      (readImmediate cs).mapError fun e => { e with text := lower e.text } := by
  simp only [readImmediate, trim_lower, radixOf_lower, readInt_lower]
  cases readInt (radixOf (trim cs)) (trim cs) <;> rfl

theorem mapError_fitBits (bits : Nat) (value : Int) :
    (fitBits bits value).mapError Complaint.lower = fitBits bits value := by
  unfold fitBits
  split
  · rfl
  · split <;> rfl

theorem resolve_lower (bits : Nat) (token : List Char) :
    resolve [] bits (lower token) = (resolve [] bits token).mapError Complaint.lower := by
  simp only [resolve, List.lookup_nil, trim_lower, readImmediate_lower]
  cases readImmediate (trim token) with
  | ok value => exact (mapError_fitBits bits value).symm
  | error cause => rfl

/-! ## Operations -/

namespace Operation

theorem operands_lower (o : Operation) : o.lower.operands = o.operands.map Text.lower :=
  splitOperands_lower o.rest

theorem length_operands_lower (o : Operation) : o.lower.operands.length = o.operands.length := by
  rw [operands_lower, List.length_map]

theorem operand_lower (o : Operation) (k : Nat) : o.lower.operand k = Text.lower (o.operand k) := by
  rw [operand, operands_lower, operand, List.getD_eq_getElem?_getD, List.getD_eq_getElem?_getD,
    List.getElem?_map]
  cases o.operands[k]? <;> rfl

theorem want_lower (o : Operation) (count : Nat) :
    o.lower.want count = (o.want count).mapError Complaint.lower := by
  rw [want, length_operands_lower, want]
  split <;> rfl

theorem rest_lower (o : Operation) : o.lower.rest = Text.lower o.rest := rfl

theorem readRegister?_lower (o : Operation) (k : Nat) :
    readRegister? (o.lower.operand k) = readRegister? (o.operand k) := by
  rw [operand_lower]
  exact readRegister?_congr (fold_trim_lower _)

theorem register_lower (o : Operation) (k : Nat) :
    o.lower.register k = (o.register k).mapError Complaint.lower := by
  rw [register, readRegister?_lower, register]
  cases readRegister? (o.operand k) <;> rfl

theorem isRegister_lower (o : Operation) (k : Nat) : o.lower.isRegister k = o.isRegister k := by
  rw [isRegister, readRegister?_lower]
  rfl

theorem isName_operand_lower (o : Operation) (k : Nat) (name : String) :
    isName (o.lower.operand k) name = isName (o.operand k) name := by
  rw [operand_lower, isName_lower]

theorem kind_lower (o : Operation) (k : Nat) :
    OperandKind.ofText (o.lower.operand k) = OperandKind.ofText (o.operand k) := by
  rw [operand_lower]
  exact kind_congr (fold_trim_lower _)

theorem ofText?_lower (o : Operation) :
    Mnemonic.ofText? o.lower.mnemonic = Mnemonic.ofText? o.mnemonic :=
  ofText?_congr (fold_lower o.mnemonic)

theorem combine_lower (o : Operation) (op : Arith) :
    o.lower.combine op = (o.combine op).mapError Complaint.lower := by
  simp only [combine, length_operands_lower, register_lower, want_lower,
    mapError_bind, apply_ite (Except.mapError Complaint.lower), mapError_pure]

section Unlabelled

variable {o : Operation} (hlabels : o.labels = [])

include hlabels

theorem resolve_operand_lower (bits k : Nat) :
    resolve o.lower.labels bits (o.lower.operand k) =
      (resolve o.labels bits (o.operand k)).mapError Complaint.lower := by
  have hlabels' : o.lower.labels = [] := hlabels
  rw [hlabels, hlabels', operand_lower, resolve_lower]

theorem byte_lower (k : Nat) : o.lower.byte k = (o.byte k).mapError Complaint.lower := by
  rw [byte, resolve_operand_lower hlabels, byte, mapError_map]

theorem address_lower (k : Nat) : o.lower.address k = (o.address k).mapError Complaint.lower := by
  rw [address, resolve_operand_lower hlabels, address, mapError_map]

theorem rows_lower (k : Nat) : o.lower.rows k = (o.rows k).mapError Complaint.lower := by
  rw [rows, resolve_operand_lower hlabels, rows, mapError_map]

theorem jump_lower : o.lower.jump = o.jump.mapError Complaint.lower := by
  simp only [jump, length_operands_lower, register_lower, address_lower hlabels, want_lower,
    mapError_bind, apply_ite (Except.mapError Complaint.lower), mapError_pure, mapError_throw,
    Complaint.lower]

theorem compare_lower (withRegister : Register → Register → Condition)
    (withByte : Register → UInt8 → Condition) :
    o.lower.compare withRegister withByte =
      (o.compare withRegister withByte).mapError Complaint.lower := by
  simp only [compare, isRegister_lower, register_lower, byte_lower hlabels, want_lower,
    mapError_bind, apply_ite (Except.mapError Complaint.lower), mapError_pure]

theorem addition_lower : o.lower.addition = o.addition.mapError Complaint.lower := by
  simp only [addition, isName_operand_lower, isRegister_lower, register_lower, byte_lower hlabels,
    want_lower, mapError_bind, apply_ite (Except.mapError Complaint.lower), mapError_pure]

theorem loading_lower : o.lower.loading = o.loading.mapError Complaint.lower := by
  simp only [loading, kind_lower, register_lower, byte_lower hlabels, address_lower hlabels,
    want_lower, mapError_bind]
  congr 1
  funext _
  split <;> simp only [mapError_bind, mapError_pure, mapError_throw, Complaint.lower, rest_lower]

theorem instruction_lower : o.lower.instruction = o.instruction.mapError Complaint.lower := by
  simp only [instruction, ofText?_lower]
  cases Mnemonic.ofText? o.mnemonic with
  | none => rfl
  | some m =>
    cases m <;>
      simp only [jump_lower hlabels, compare_lower hlabels, combine_lower, addition_lower hlabels,
        loading_lower hlabels, want_lower, register_lower, byte_lower hlabels,
        address_lower hlabels, rows_lower hlabels, mapError_bind, mapError_pure]

end Unlabelled

end Operation

/-! ## What is emitted -/

theorem resolveAll_lower (bits : Nat) (tokens : List (List Char)) :
    resolveAll [] bits (tokens.map Text.lower) =
      (resolveAll [] bits tokens).mapError Complaint.lower := by
  induction tokens with
  | nil => rfl
  | cons token rest ih =>
    simp only [List.map_cons, resolveAll, resolve_lower, ih, mapError_bind, mapError_pure]

theorem emit_lower (statement : Statement) :
    statement.lower.emit [] = (statement.emit []).mapError Complaint.lower := by
  cases statement with
  | label | origin => rfl
  | bytes operands | words operands =>
    simp only [Statement.lower, Statement.emit, resolveAll_lower, mapError_bind, mapError_pure]
  | operation mnemonic rest =>
    have hinstruction := Operation.instruction_lower (o := ⟨[], mnemonic, rest⟩) rfl
    simp only [Operation.lower] at hinstruction
    simp only [Statement.lower, Statement.emit, hinstruction, mapError_bind, mapError_pure]

theorem size_lower (statement : Statement) : statement.lower.size = statement.size := by
  cases statement with
  | label | origin | operation => rfl
  | bytes | words => simp only [Statement.lower, Statement.size, List.length_map]

theorem names_lower (statement : Statement) :
    statement.lower.names = statement.names.map Text.lower := by
  cases statement <;> rfl

theorem Error.ofComplaint_lower (number : Nat) (complaint : Complaint) :
    Error.ofComplaint number complaint.lower = (Error.ofComplaint number complaint).lower := by
  have hwritable : complaint.lower.isWritable = complaint.isWritable := by cases complaint <;> rfl
  unfold Error.ofComplaint
  rw [hwritable]
  split <;> rfl

/-- An origin is listed with small letters only. -/
theorem originText_lower (target : Int) : Text.lower (originText target) = originText target := by
  have hdigit : ∀ d : Fin 16, ((Nat.digitChar d).toLower == Nat.digitChar d) = true := by decide
  have hdigits (n : Nat) : Text.lower (originLayout.digits n) = originLayout.digits n :=
    lower_of_all (all_toDigits (by decide) (fun d hd => hdigit ⟨d, hd⟩) n)
  have hlead : Text.lower (originLayout.lead target) = originLayout.lead target := by
    unfold HexLayout.lead
    split <;> decide
  have hzeros (count : Nat) : Text.lower (List.replicate count '0') = List.replicate count '0' :=
    List.map_replicate
  have hname : Text.lower ".org ".toList = ".org ".toList := by decide
  simp only [originText, HexLayout.chars, lower_append, hname, hlead, hzeros, hdigits]

/-! ## Both passes -/

section Passes

variable {line : SourceLine} {lines : List SourceLine}

/-- A statement that defines no label is an origin, or it emits bytes. -/
theorem origin_or_content {statement : Statement} (h : statement.names = []) :
    (∃ operand, statement = .origin operand) ∨ statement.isContent = true := by
  cases statement with
  | label name => cases h
  | origin operand => exact .inl ⟨operand, rfl⟩
  | bytes | words | operation => exact .inr rfl

theorem SourceLine.ofText_lower (line : SourceLine) :
    Statement.ofText line.lower.text = (Statement.ofText line.text).lower :=
  Assembly.ofText_lower line.text

theorem content_lower (hcontent : (Statement.ofText line.text).isContent = true) :
    (Statement.ofText line.lower.text).isContent = true := by
  rw [line.ofText_lower, ← hcontent]
  cases Statement.ofText line.text <;> rfl

theorem step_lower (hline : (Statement.ofText line.text).names = []) (l : Layout) :
    l.step line.lower = (l.step line).mapError Error.lower := by
  rcases origin_or_content hline with ⟨operand, hstatement⟩ | hcontent
  · have hlower := line.ofText_lower
    rw [hstatement] at hlower
    simp only [Layout.step, hstatement, hlower, Statement.lower, readImmediate_lower]
    cases readImmediate operand with
    | error cause => rfl
    | ok target =>
      dsimp only [Except.mapError]
      split <;> rfl
  · rw [step_of_content hcontent, step_of_content (content_lower hcontent), line.ofText_lower,
      size_lower]
    rfl

theorem scan_lower (hlines : namesOf lines = []) (l : Layout) :
    l.scan (lines.map (·.lower)) = (l.scan lines).mapError Error.lower := by
  induction lines generalizing l with
  | nil => rfl
  | cons line rest ih =>
    obtain ⟨hline, hrest⟩ := List.append_eq_nil_iff.1 hlines
    rw [List.map_cons, Layout.scan, Layout.scan, mapError_bind, step_lower hline]
    simp only [ih hrest]

theorem rowAt?_lower (hline : (Statement.ofText line.text).names = []) (address : Int) :
    rowAt? [] address line.lower =
      ((rowAt? [] address line).map (Option.map Row.lower)).mapError Error.lower := by
  rcases origin_or_content hline with ⟨operand, hstatement⟩ | hcontent
  · have hlower := line.ofText_lower
    rw [hstatement] at hlower
    simp only [rowAt?, hstatement, hlower, Statement.lower, readImmediate_lower]
    cases readImmediate operand with
    | error cause => rfl
    | ok target =>
      dsimp only [Except.mapError]
      -- How much room there is does not depend on the text.
      cases roomForRun (target - address) with
      | error cause => rfl
      | ok padding =>
        simp only [Except.map, Option.map_some, Row.lower, originText_lower]
  · rw [rowAt?_of_content hcontent, rowAt?_of_content (content_lower hcontent), line.ofText_lower,
      emit_lower]
    cases (Statement.ofText line.text).emit [] with
    | error complaint =>
      exact congrArg Except.error (Error.ofComplaint_lower line.number complaint)
    | ok bytes => rfl

theorem rowsFrom_lower (hlines : namesOf lines = []) (address : Int) :
    rowsFrom [] address (lines.map (·.lower)) =
      ((rowsFrom [] address lines).map (List.map Row.lower)).mapError Error.lower := by
  induction lines generalizing address with
  | nil => rfl
  | cons line rest ih =>
    obtain ⟨hline, hrest⟩ := List.append_eq_nil_iff.1 hlines
    rw [List.map_cons, rowsFrom, rowsFrom, rowAt?_lower hline]
    cases rowAt? [] address line with
    | error e => rfl
    | ok row =>
      cases row with
      | none => exact ih hrest address
      | some row =>
        have hrows := ih hrest row.after
        show (rowsFrom [] row.after (rest.map (·.lower)) >>= fun rows =>
          pure (row.lower :: rows)) = ((rowsFrom [] row.after rest >>= fun rows =>
            pure (row :: rows)).map (List.map Row.lower)).mapError Error.lower
        rw [hrows]
        cases rowsFrom [] row.after rest <;> rfl

end Passes

/-- The source text that was assembled, in small letters. -/
def Assembled.lower (a : Assembled) : Assembled := { a with rows := a.rows.map Row.lower }

theorem Assembled.image_lower (a : Assembled) : a.lower.image = a.image := by
  unfold image
  exact List.flatMap_map ..

/-- Lines without a label are assembled to the same in small letters. -/
theorem assembleLines_lower {lines : List SourceLine} (hlines : namesOf lines = []) (base : Int) :
    assembleLines (lines.map (·.lower)) base =
      ((assembleLines lines base).map Assembled.lower).mapError Error.lower := by
  unfold assembleLines
  rw [scan_lower hlines]
  cases hscan : (Layout.mk [] base).scan lines with
  | error e => rfl
  | ok last =>
    -- Without a label in the lines the second pass starts with an empty table.
    have hlabels : last.labels = [] := by
      have hnames := names_of_scan hscan
      rw [hlines] at hnames
      exact List.map_eq_nil_iff.1 hnames
    show (rowsFrom last.labels base (lines.map (·.lower)) >>= fun rows =>
      pure (Assembled.mk last.labels rows)) = ((rowsFrom last.labels base lines >>= fun rows =>
        pure (Assembled.mk last.labels rows)).map Assembled.lower).mapError Error.lower
    rw [hlabels, rowsFrom_lower hlines]
    cases rowsFrom [] base lines <;> rfl

/-- **A source text without a label is assembled to the same in small letters.** -/
theorem assemble_lower {source : String} (hlabels : namesOf (sourceLines source.toList) = [])
    (base : Int) :
    assemble (String.ofList (lower source.toList)) base =
      ((assemble source base).map Assembled.lower).mapError Error.lower := by
  rw [assemble_eq, assemble_eq, String.toList_ofList, sourceLines_lower,
    assembleLines_lower hlabels]

/-! ## Switching the case of letters -/

/-- A letter in the other case. -/
def switchChar (c : Char) : Char := if c.isUpper then c.toLower else c.toUpper

/-- A source text with the letters at some places in the other case. -/
def switchCase (which : Nat → Bool) (source : String) : String :=
  String.ofList (source.toList.mapIdx fun k c => if which k then switchChar c else c)

theorem toLower_switchChar (c : Char) : (switchChar c).toLower = c.toLower := by
  unfold switchChar
  split
  · exact toLower_toLower c
  · exact toLower_toUpper c

theorem lower_switchCase (which : Nat → Bool) (source : String) :
    lower (switchCase which source).toList = lower source.toList := by
  refine List.ext_getElem? fun k => ?_
  rw [switchCase, String.toList_ofList, lower, lower, List.getElem?_map, List.getElem?_map,
    List.getElem?_mapIdx, Option.map_map]
  refine Option.map_congr fun c _ => ?_
  show (if which k then switchChar c else c).toLower = c.toLower
  split
  · exact toLower_switchChar c
  · rfl

theorem namesOf_lower (lines : List SourceLine) :
    namesOf (lines.map (·.lower)) = (namesOf lines).map Text.lower := by
  simp only [namesOf, List.flatMap_map, List.map_flatMap, SourceLine.ofText_lower, names_lower]

/-- One error is the other up to the case of the letters that it quotes. -/
inductive Error.Alike : Error → Error → Prop
  | atLine (number : Nat) {complaint complaint' : Complaint}
    (same : complaint.lower = complaint'.lower) :
    Alike (.atLine number complaint) (.atLine number complaint')
  | badOrigin {cause cause' : BadInteger} (radix : cause.radix = cause'.radix)
    (text : Text.lower cause.text = Text.lower cause'.text) (same : cause.cause = cause'.cause) :
    Alike (.badOrigin cause) (.badOrigin cause')
  | noRoom (cause : RoomError) : Alike (.noRoom cause) (.noRoom cause)
  | unwritable : Alike .unwritable .unwritable

theorem Error.alike_of_lower {e e' : Error} (h : e.lower = e'.lower) : e.Alike e' := by
  cases e <;> cases e' <;> simp only [lower, reduceCtorEq, Error.atLine.injEq,
    Error.badOrigin.injEq, Error.noRoom.injEq, BadInteger.mk.injEq] at h
  · obtain ⟨rfl, hcomplaint⟩ := h
    exact .atLine _ hcomplaint
  · obtain ⟨hradix, htext, hcause⟩ := h
    exact .badOrigin hradix htext hcause
  · obtain rfl := h
    exact .noRoom _
  · exact .unwritable

/-- **Assembling takes no notice of the case of letters, labels apart.** -/
theorem assemble_switchCase (which : Nat → Bool) {source : String}
    (hlabels : namesOf (sourceLines source.toList) = []) (base : Int) :
    (∃ a a', assemble source base = .ok a ∧ assemble (switchCase which source) base = .ok a' ∧
      a'.image = a.image) ∨
    (∃ e e', assemble source base = .error e ∧
      assemble (switchCase which source) base = .error e' ∧ e'.Alike e) := by
  have hsmall : (namesOf (sourceLines (switchCase which source).toList)).map Text.lower = [] := by
    rw [← namesOf_lower, ← sourceLines_lower, lower_switchCase, sourceLines_lower, namesOf_lower,
      hlabels, List.map_nil]
  have hlabels' : namesOf (sourceLines (switchCase which source).toList) = [] :=
    List.map_eq_nil_iff.1 hsmall
  -- Both texts are the same in small letters, and in small letters either is assembled alike.
  have hswitched := assemble_lower hlabels' base
  rw [lower_switchCase, assemble_lower hlabels base] at hswitched
  cases hsource : assemble source base with
  | ok a =>
    cases hother : assemble (switchCase which source) base with
    | ok a' =>
      rw [hsource, hother] at hswitched
      have himage : a.lower.image = a'.lower.image :=
        congrArg Assembled.image (Except.ok.inj hswitched)
      rw [Assembled.image_lower, Assembled.image_lower] at himage
      exact .inl ⟨a, a', rfl, rfl, himage.symm⟩
    | error e' =>
      rw [hsource, hother] at hswitched
      cases hswitched
  | error e =>
    cases hother : assemble (switchCase which source) base with
    | ok a' =>
      rw [hsource, hother] at hswitched
      cases hswitched
    | error e' =>
      rw [hsource, hother] at hswitched
      have halike : e.lower = e'.lower := Except.error.inj hswitched
      exact .inr ⟨e, e', rfl, rfl, Error.alike_of_lower halike.symm⟩

/-- A load and a directive of bytes, with every letter in the other case. -/
theorem assemble_switchCase_everywhere :
    let source := "ld VA, 0xAb\n.db 0b11, -1"
    let switched := "LD va, 0XaB\n.DB 0B11, -1"
    namesOf (sourceLines source.toList) = [] ∧ switchCase (fun _ => true) source = switched ∧
      ∃ a a', assemble source 0x200 = .ok a ∧ assemble switched 0x200 = .ok a' ∧
        a'.image = a.image ∧ a.image = [0x6A, 0xAB, 3, 0xFF] := by
  have hlabels : namesOf (sourceLines "ld VA, 0xAb\n.db 0b11, -1".toList) = [] := by decide +kernel
  have hswitched : switchCase (fun _ => true) "ld VA, 0xAb\n.db 0b11, -1" =
      "LD va, 0XaB\n.DB 0B11, -1" := by decide +kernel
  have hsource : assemble "ld VA, 0xAb\n.db 0b11, -1" 0x200 = .ok
      ⟨[], [⟨0x200, 0, [0x6A, 0xAB], "ld VA, 0xAb".toList⟩,
        ⟨0x202, 0, [3, 0xFF], ".db 0b11, -1".toList⟩]⟩ := by rfl
  refine ⟨hlabels, hswitched, ?_⟩
  rcases assemble_switchCase (fun _ => true) hlabels 0x200 with
    ⟨a, a', ha, ha', himage⟩ | ⟨e, e', he, -, -⟩
  · rw [hswitched] at ha'
    rw [hsource] at ha
    cases ha
    exact ⟨_, a', hsource, ha', himage, rfl⟩
  · rw [hsource] at he
    cases he

end ChipEight.Assembly
