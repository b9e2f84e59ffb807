import ChipEight.Proofs.Assembly.RoundTrip

/-!
# The two passes agree

A source text is gone through twice. The first pass only counts how much room each line takes and so
finds the addresses of the labels; the second one emits the bytes.

**Theorem (`passes_agree`).** If a source text can be assembled, then the address of a label is the
base and the number of bytes that the lines before its definition emit, the length of the image is
what the first pass counted, an origin puts as many zeros as there are from the address reached up
to its own, and an operand for an address that is spelled as a label is the address of that label,
wherever the label is defined.

The passes meet the same lines in the same order, so it is enough that they agree about one line:
what a line adds to the address in the first pass is the length of what it emits in the second
(`Goes.address_eq`). Then they agree about any lines by induction (`scan_address`). Labels are only
ever added, each at the address reached, so what is looked up at the end is what was put down when
the first pass came to the label.
-/

namespace ChipEight.Assembly

open Text Instruction

variable {labels : Labels} {address : Int} {line : SourceLine}

/-! ## Room -/

theorem length_resolveAll {bits : Nat} {tokens : List (List Char)} {values : List Nat}
    (h : resolveAll labels bits tokens = .ok values) : values.length = tokens.length := by
  induction tokens generalizing values with
  | nil =>
    cases h
    rfl
  | cons token rest ih =>
    simp only [resolveAll, bind_ok_iff, pure_ok_iff] at h
    obtain ⟨value, -, later, hlater, rfl⟩ := h
    rw [List.length_cons, List.length_cons, ih hlater]

/-- A statement emits as many bytes as were counted for it. -/
theorem length_emit {statement : Statement} {bytes : List UInt8}
    (h : statement.emit labels = .ok bytes) : bytes.length = statement.size := by
  cases statement with
  | label name | origin operand =>
    cases h
    rfl
  | bytes operands =>
    simp only [Statement.emit, bind_ok_iff, pure_ok_iff] at h
    obtain ⟨values, hvalues, rfl⟩ := h
    rw [List.length_map, length_resolveAll hvalues]
    rfl
  | words operands =>
    simp only [Statement.emit, bind_ok_iff, pure_ok_iff] at h
    obtain ⟨values, hvalues, rfl⟩ := h
    -- Every value makes two bytes.
    have hword (value : Nat) : (Word.toBytes (UInt16.ofNat value)).length = 2 := rfl
    simp only [List.length_flatMap, hword, List.map_const', List.sum_replicate_nat]
    rw [length_resolveAll hvalues, Nat.mul_comm]
    rfl
  | operation mnemonic rest =>
    simp only [Statement.emit, bind_ok_iff, pure_ok_iff] at h
    obtain ⟨i, -, rfl⟩ := h
    rfl

theorem roomForRun_eq_ok {count : Int} {n : Nat} (h : roomForRun count = .ok n) :
    (n : Int) = count := by
  unfold roomForRun roomFor at h
  repeat' split at h
  all_goals cases h
  omega

/-! ## One line -/

theorem isContent_of_ne {statement : Statement} (hlabel : ∀ name, statement = .label name → False)
    (horigin : ∀ operand, statement = .origin operand → False) : statement.isContent = true := by
  cases statement with
  | label name => exact absurd rfl (hlabel name)
  | origin operand => exact absurd rfl (horigin operand)
  | _ => rfl

/-- What the first pass makes of a line. -/
inductive Goes (l : Layout) (line : SourceLine) : Layout → Prop
  | label {name : List Char} (statement : Statement.ofText line.text = .label name)
      (new : l.labels.lookup name = none) :
      Goes l line { l with labels := l.labels ++ [(name, l.address)] }
  | origin {operand : List Char} {target : Int}
      (statement : Statement.ofText line.text = .origin operand)
      (reads : readImmediate operand = .ok target) (forward : l.address ≤ target) :
      Goes l line { l with address := target }
  | content (content : (Statement.ofText line.text).isContent = true) :
      Goes l line { l with address := l.address + (Statement.ofText line.text).size }

theorem goes_of_step {l next : Layout} (h : l.step line = .ok next) : Goes l line next := by
  unfold Layout.step at h
  split at h
  case h_1 name statement =>
    split at h
    · cases h
    · next hnew =>
      cases h
      exact .label statement (Option.not_isSome_iff_eq_none.1 hnew)
  case h_2 operand statement =>
    split at h
    · cases h
    · next target hread =>
      split at h
      · cases h
      · next hforward =>
        cases h
        exact .origin statement hread (by omega)
  case h_3 hlabel horigin =>
    cases h
    exact .content (isContent_of_ne hlabel horigin)

theorem rowAt?_label {name : List Char} (h : Statement.ofText line.text = .label name) :
    rowAt? labels address line = .ok none := by
  rw [rowAt?, h]

theorem rowAt?_origin {operand : List Char} {target : Int} {row : Option Row}
    (h : Statement.ofText line.text = .origin operand) (hread : readImmediate operand = .ok target)
    (hrow : rowAt? labels address line = .ok row) :
    ∃ padding : Nat, (padding : Int) = target - address ∧
      row = some ⟨address, padding, [], originText target⟩ := by
  simp only [rowAt?, h, hread] at hrow
  split at hrow
  · cases hrow
  · next padding hroom =>
    cases hrow
    exact ⟨padding, roomForRun_eq_ok hroom, rfl⟩

theorem rowAt?_content {row : Option Row} (h : (Statement.ofText line.text).isContent = true)
    (hrow : rowAt? labels address line = .ok row) :
    ∃ bytes, (Statement.ofText line.text).emit labels = .ok bytes ∧
      row = some ⟨address, 0, bytes, line.text⟩ := by
  rw [rowAt?_of_content h] at hrow
  split at hrow
  · cases hrow
  · next bytes hemit =>
    cases hrow
    exact ⟨bytes, hemit, rfl⟩

theorem address_of_rowAt? {row : Row} (h : rowAt? labels address line = .ok (some row)) :
    row.address = address := by
  unfold rowAt? at h
  repeat' split at h
  all_goals cases h
  all_goals rfl

/-- What the first pass counts for a line is what the second one emits for it. -/
theorem Goes.address_eq {l next : Layout} {row : Option Row} (h : Goes l line next)
    (hrow : rowAt? labels l.address line = .ok row) :
    next.address = l.address + (row.toList.flatMap Row.image).length := by
  cases h with
  | label statement =>
    rw [rowAt?_label statement] at hrow
    cases hrow
    simp
  | origin statement reads =>
    obtain ⟨padding, hpadding, rfl⟩ := rowAt?_origin statement reads hrow
    simp [Row.image]
    omega
  | content content =>
    obtain ⟨bytes, hemit, rfl⟩ := rowAt?_content content hrow
    simp [Row.image, length_emit hemit]

theorem Row.after_eq (row : Row) : row.after = row.address + row.image.length := by
  simp [Row.after, Row.image]
  omega

/-! ## Any lines -/

theorem scan_append (l : Layout) (before after : List SourceLine) :
    l.scan (before ++ after) = l.scan before >>= fun here => here.scan after := by
  induction before generalizing l with
  | nil => rfl
  | cons line rest ih =>
    rw [List.cons_append, Layout.scan, Layout.scan]
    cases l.step line with
    | error e => rfl
    | ok next => exact ih next

theorem rowsFrom_cons_eq_ok {rest : List SourceLine} {rows : List Row} :
    rowsFrom labels address (line :: rest) = .ok rows ↔
      ∃ row later, rowAt? labels address line = .ok row ∧
        rowsFrom labels (address + (row.toList.flatMap Row.image).length) rest = .ok later ∧
        rows = row.toList ++ later := by
  rw [rowsFrom, bind_ok_iff]
  constructor
  -- A line without a row leaves the address as it is, the others move it by their image.
  · rintro ⟨row, hrow, h⟩
    cases row with
    | none => exact ⟨none, rows, hrow, by simpa using h, rfl⟩
    | some row =>
      obtain ⟨later, hlater, hrows⟩ := bind_ok_iff.1 h
      rw [row.after_eq, address_of_rowAt? hrow] at hlater
      exact ⟨some row, later, hrow, by simpa using hlater, (pure_ok_iff.1 hrows).symm⟩
  · rintro ⟨row, later, hrow, hlater, rfl⟩
    refine ⟨row, hrow, ?_⟩
    cases row with
    | none => simpa using hlater
    | some row =>
      refine bind_ok_iff.2 ⟨later, ?_, rfl⟩
      rw [row.after_eq, address_of_rowAt? hrow]
      simpa using hlater

theorem rowsFrom_cons_eq_error {rest : List SourceLine} {e : Error} :
    rowsFrom labels address (line :: rest) = .error e ↔
      rowAt? labels address line = .error e ∨ ∃ row, rowAt? labels address line = .ok row ∧
        rowsFrom labels (address + (row.toList.flatMap Row.image).length) rest = .error e := by
  rw [rowsFrom, bind_error_iff]
  refine or_congr_right (exists_congr fun row => and_congr_right fun hrow => ?_)
  cases row with
  | none => simp
  | some row =>
    have hstart : address + ((some row).toList.flatMap Row.image).length = row.after := by
      rw [row.after_eq, address_of_rowAt? hrow]
      simp
    rw [hstart, bind_error_iff]
    refine ⟨fun h => h.resolve_right ?_, .inl⟩
    rintro ⟨_, -, hpure⟩
    cases hpure

theorem exists_rowsFrom_of_append {before after : List SourceLine} {rows : List Row}
    (h : rowsFrom labels address (before ++ after) = .ok rows) :
    ∃ earlier later, rowsFrom labels address before = .ok earlier ∧
      rowsFrom labels (address + (earlier.flatMap Row.image).length) after = .ok later ∧
      rows = earlier ++ later := by
  induction before generalizing address rows with
  | nil => exact ⟨[], rows, rfl, by simpa using h, rfl⟩
  | cons line rest ih =>
    obtain ⟨row, more, hrow, hmore, rfl⟩ := rowsFrom_cons_eq_ok.1 h
    obtain ⟨earlier, later, hearlier, hlater, rfl⟩ := ih hmore
    have hfront := rowsFrom_cons_eq_ok.2 ⟨row, earlier, hrow, hearlier, rfl⟩
    refine ⟨row.toList ++ earlier, later, hfront, ?_, (List.append_assoc ..).symm⟩
    rw [List.flatMap_append, List.length_append, Int.natCast_add, ← Int.add_assoc]
    exact hlater

/-- **The first pass counts what the second one emits.** -/
theorem scan_address {lines : List SourceLine} {l last : Layout} {rows : List Row}
    (hscan : l.scan lines = .ok last) (hrows : rowsFrom labels l.address lines = .ok rows) :
    last.address = l.address + (rows.flatMap Row.image).length := by
  induction lines generalizing l rows with
  | nil =>
    cases hscan
    cases hrows
    simp
  | cons line rest ih =>
    obtain ⟨next, hnext, hlast⟩ := bind_ok_iff.1 hscan
    obtain ⟨row, later, hrow, hlater, rfl⟩ := rowsFrom_cons_eq_ok.1 hrows
    have hone := (goes_of_step hnext).address_eq hrow
    rw [← hone] at hlater
    rw [ih hlast hlater, hone, List.flatMap_append, List.length_append]
    omega

/-! ## Labels -/

theorem lookup_of_goes {l next : Layout} (h : Goes l line next) {name : List Char} {value : Int}
    (hname : l.labels.lookup name = some value) : next.labels.lookup name = some value := by
  cases h with
  | label statement new => rw [List.lookup_append, hname]; rfl
  | origin | content => exact hname

theorem lookup_or_here {l next : Layout} (h : Goes l line next) {name : List Char} {value : Int}
    (hname : next.labels.lookup name = some value) :
    l.labels.lookup name = some value ∨
      Statement.ofText line.text = .label name ∧ l.address = value := by
  cases h with
  | @label new statement _ =>
    rw [List.lookup_append, Option.or_eq_some_iff] at hname
    rcases hname with hthere | ⟨-, hhere⟩
    · exact .inl hthere
    · right
      rw [List.lookup_cons] at hhere
      split at hhere
      · next hsame =>
        cases hhere
        rw [eq_of_beq hsame]
        exact ⟨statement, rfl⟩
      · cases hhere
  | origin | content => exact .inl hname

/-- A label keeps its address. -/
theorem lookup_of_scan {lines : List SourceLine} {l last : Layout} (h : l.scan lines = .ok last)
    {name : List Char} {value : Int} (hname : l.labels.lookup name = some value) :
    last.labels.lookup name = some value := by
  induction lines generalizing l with
  | nil =>
    cases h
    exact hname
  | cons line rest ih =>
    obtain ⟨next, hnext, hlast⟩ := bind_ok_iff.1 h
    exact ih hlast (lookup_of_goes (goes_of_step hnext) hname)

/-- A label that was not there before has the address that was reached at its line. -/
theorem exists_line_of_lookup {lines : List SourceLine} {l last : Layout}
    (h : l.scan lines = .ok last) {name : List Char} {value : Int}
    (hname : last.labels.lookup name = some value) :
    l.labels.lookup name = some value ∨
      ∃ before line after here, lines = before ++ line :: after ∧ l.scan before = .ok here ∧
        Statement.ofText line.text = .label name ∧ here.address = value := by
  induction lines generalizing l with
  | nil =>
    cases h
    exact .inl hname
  | cons line rest ih =>
    obtain ⟨next, hnext, hlast⟩ := bind_ok_iff.1 h
    rcases ih hlast with hthere | ⟨before, found, after, here, rfl, hbefore, hstatement, hvalue⟩
    · exact (lookup_or_here (goes_of_step hnext) hthere).imp_right fun ⟨hstatement, hvalue⟩ =>
        ⟨[], line, rest, l, rfl, rfl, hstatement, hvalue⟩
    · refine .inr ⟨line :: before, found, after, here, rfl, ?_, hstatement, hvalue⟩
      exact bind_ok_iff.2 ⟨next, hnext, hbefore⟩

/-! ## Operands for addresses -/

/-- The operations with an operand for an address: their mnemonic and operands, that operand, and
the instructions that they stand for. -/
inductive AddressForm (mnemonic : List Char) :
    List (List Char) → List Char → (Address → Instruction) → Prop
  | jump {token : List Char} (named : isName mnemonic "jp" = true) :
      AddressForm mnemonic [token] token .jump
  | jumpOffset {register token : List Char} (named : isName mnemonic "jp" = true) :
      AddressForm mnemonic [register, token] token .jumpOffset
  | call {token : List Char} (named : isName mnemonic "call" = true) :
      AddressForm mnemonic [token] token .call
  | setIndex {index token : List Char} (named : isName mnemonic "ld" = true)
      (indexed : isName index "i" = true) : AddressForm mnemonic [index, token] token .setIndex

theorem ofText?_of_isName {mnemonic : List Char} {name : String} {m : Mnemonic}
    (h : isName mnemonic name = true) (hsmall : fold name.toList = name.toList)
    (hname : Mnemonic.ofText? name.toList = some m) : Mnemonic.ofText? mnemonic = some m := by
  rw [← hname]
  exact ofText?_congr ((eq_of_beq h).trans hsmall.symm)

/-- Such an operation is read as its instruction with the address that its operand says. -/
theorem AddressForm.exists_target {o : Operation} {operands : List (List Char)}
    {token : List Char} {form : Address → Instruction} {i : Instruction}
    (hform : AddressForm o.mnemonic operands token form) (hoperands : o.operands = operands)
    (h : o.instruction = .ok i) :
    ∃ target, i = form target ∧ SaidBy o.labels token (.address target) := by
  have hoperand (k : Nat) : o.operand k = operands.getD k [] := by
    rw [Operation.operand, hoperands]
  have hlength : o.operands.length = operands.length := by rw [hoperands]
  unfold Operation.instruction at h
  cases hform with
  -- In each form the mnemonic fixes the branch, and the operand is read at its place in the list.
  | jump named =>
    have htwo : ¬ o.operands.length = 2 := by simp [hlength]
    rw [ofText?_of_isName named (by decide) (m := .jp) (by decide)] at h
    simp only [Operation.jump, if_neg htwo, bind_ok_iff, Operation.address_eq_ok, pure_ok_iff] at h
    obtain ⟨-, -, target, htarget, rfl⟩ := h
    rw [hoperand 0] at htarget
    exact ⟨target, rfl, htarget⟩
  | jumpOffset named =>
    have htwo : o.operands.length = 2 := hlength
    rw [ofText?_of_isName named (by decide) (m := .jp) (by decide)] at h
    simp only [Operation.jump, if_pos htwo, bind_ok_iff] at h
    obtain ⟨r, -, h⟩ := h
    split at h
    · cases h
    · simp only [bind_ok_iff, Operation.address_eq_ok, pure_ok_iff] at h
      obtain ⟨target, htarget, rfl⟩ := h
      rw [hoperand 1] at htarget
      exact ⟨target, rfl, htarget⟩
  | call named =>
    rw [ofText?_of_isName named (by decide) (m := .call) (by decide)] at h
    simp only [bind_ok_iff, Operation.address_eq_ok, pure_ok_iff] at h
    obtain ⟨-, -, target, htarget, rfl⟩ := h
    rw [hoperand 0] at htarget
    exact ⟨target, rfl, htarget⟩
  | setIndex named indexed =>
    rw [ofText?_of_isName named (by decide) (m := .ld) (by decide)] at h
    -- A first operand `I` is what makes a load an address form.
    have hkind : OperandKind.ofText (o.operand 0) = .index := by
      refine (kind_eq_iff_isName _ .index "i" (by decide) (by decide) (by decide)
        (by decide)).2 ?_
      rw [o.trim_operand, hoperand 0]
      exact indexed
    simp only [Operation.loading, hkind, bind_ok_iff, Operation.address_eq_ok, pure_ok_iff] at h
    obtain ⟨-, -, target, htarget, rfl⟩ := h
    rw [hoperand 1] at htarget
    exact ⟨target, rfl, htarget⟩

/-- The operands of a statement that may be spelled as labels. That of an origin may not. -/
def Statement.tokens : Statement → List (List Char)
  | .bytes operands | .words operands => operands
  | .operation _ rest => splitOperands rest
  | _ => []

theorem trim_of_mem_tokens {text token : List Char} (h : token ∈ (Statement.ofText text).tokens) :
    trim token = token := by
  unfold Statement.ofText at h
  split_ifs at h
  · cases h
  · cases h
  · exact trim_of_mem_splitOperands h
  · exact trim_of_mem_splitOperands h
  · exact trim_of_mem_splitOperands h

/-- Every operand of the statement that is an address and spelled as a label is, among the bytes,
the address of the label. -/
def Refers (labels : Labels) : Statement → List UInt8 → Prop
  | .words operands, bytes => ∀ k token value, operands[k]? = some token →
      labels.lookup token = some value →
      ∃ word, (bytes.drop (2 * k)).take 2 = Word.toBytes word ∧ (word.toNat : Int) = value
  | .operation mnemonic rest, bytes => ∀ token form value,
      AddressForm mnemonic (splitOperands rest) token form → labels.lookup token = some value →
      ∃ word target, bytes = Word.toBytes word ∧ decode word = form target ∧
        (target.val : Int) = value
  | _, _ => True

theorem AddressForm.isKnown {mnemonic token : List Char} {operands : List (List Char)}
    {form : Address → Instruction} (h : AddressForm mnemonic operands token form)
    (target : Address) : (form target).isKnown = true := by
  cases h <;> rfl

theorem valueOf?_of_label {token : List Char} {value : Int}
    (htrim : trim token = token) (h : labels.lookup token = some value) :
    valueOf? labels token = some value := by
  rw [valueOf?, htrim, h]
  rfl

theorem word_of_resolveAll {tokens : List (List Char)} {values : List Nat}
    (h : resolveAll labels 16 tokens = .ok values) {k : Nat} {token : List Char}
    (hk : tokens[k]? = some token) :
    ∃ n, resolve labels 16 token = .ok n ∧
      ((values.flatMap fun value => Word.toBytes (UInt16.ofNat value)).drop (2 * k)).take 2 =
        Word.toBytes (UInt16.ofNat n) := by
  induction tokens generalizing values k with
  | nil => cases hk
  | cons first rest ih =>
    simp only [resolveAll, bind_ok_iff, pure_ok_iff] at h
    obtain ⟨n, hn, later, hlater, rfl⟩ := h
    cases k with
    | zero =>
      cases hk
      exact ⟨n, hn, rfl⟩
    | succ k =>
      obtain ⟨m, hm, hword⟩ := ih hlater hk
      exact ⟨m, hm, hword⟩

theorem AddressForm.mem {mnemonic token : List Char} {operands : List (List Char)}
    {form : Address → Instruction} (h : AddressForm mnemonic operands token form) :
    token ∈ operands := by
  cases h <;> simp

theorem refers_of_emit {statement : Statement} {bytes : List UInt8}
    (htrim : ∀ token ∈ statement.tokens, trim token = token)
    (h : statement.emit labels = .ok bytes) : Refers labels statement bytes := by
  cases statement with
  | words operands =>
    intro k token value hk hvalue
    simp only [Statement.emit, bind_ok_iff, pure_ok_iff] at h
    obtain ⟨values, hvalues, rfl⟩ := h
    obtain ⟨n, hn, hword⟩ := word_of_resolveAll hvalues hk
    refine ⟨UInt16.ofNat n, hword, ?_⟩
    obtain ⟨found, hfound, hfits⟩ := resolve_eq_ok.1 hn
    rw [valueOf?_of_label (htrim token (List.mem_of_getElem? hk)) hvalue] at hfound
    cases hfound
    -- Only a byte may stand for a negative number, so a word is the value itself.
    have hn : n < 65536 ∧ (n : Int) = value := by
      have hbits := fitBits_eq_ok.1 hfits
      omega
    rw [UInt16.toNat_ofNat']
    omega
  | operation mnemonic rest =>
    intro token form value hform hvalue
    simp only [Statement.emit, bind_ok_iff, pure_ok_iff] at h
    obtain ⟨i, hi, rfl⟩ := h
    obtain ⟨target, rfl, hsaid⟩ := hform.exists_target (o := ⟨labels, mnemonic, rest⟩) rfl hi
    cases hsaid with
    | address stands =>
      rw [valueOf?_of_label (htrim token hform.mem) hvalue] at stands
      exact ⟨_, target, rfl, decode_encode (hform.isKnown target), (Option.some.inj stands).symm⟩
  | label | origin | bytes => trivial

/-! ## The two passes -/

/-- What a line emits that is reached at an address, all labels being known. -/
inductive Emitted (labels : Labels) (here : Int) : Statement → Option Row → Prop
  | label {name : List Char} (stands : labels.lookup name = some here) :
      Emitted labels here (.label name) none
  | origin {operand : List Char} {target : Int} {row : Row}
      (reads : readImmediate operand = .ok target) (starts : row.address = here)
      (pads : (row.padding : Int) = target - here) (empty : row.bytes = []) :
      Emitted labels here (.origin operand) (some row)
  | content {statement : Statement} {row : Row} (content : statement.isContent = true)
      (starts : row.address = here) (pads : row.padding = 0)
      (fits : row.bytes.length = statement.size) (refers : Refers labels statement row.bytes) :
      Emitted labels here statement (some row)

theorem emitted_of_goes {l next : Layout} {row : Option Row} (h : Goes l line next)
    (hrow : rowAt? labels l.address line = .ok row)
    (hlabels : ∀ name value, next.labels.lookup name = some value →
      labels.lookup name = some value) :
    Emitted labels l.address (Statement.ofText line.text) row := by
  cases h with
  | @label name statement new =>
    rw [rowAt?_label statement] at hrow
    cases hrow
    rw [statement]
    refine .label (hlabels name l.address ?_)
    rw [List.lookup_append, new]
    simp
  | origin statement reads =>
    obtain ⟨padding, hpadding, rfl⟩ := rowAt?_origin statement reads hrow
    rw [statement]
    exact .origin reads rfl hpadding rfl
  | content content =>
    obtain ⟨bytes, hemit, rfl⟩ := rowAt?_content content hrow
    have hrefers := refers_of_emit (fun _ => trim_of_mem_tokens) hemit
    exact .content content rfl rfl (length_emit hemit) hrefers

/-- At any line both passes have come to the same address, and the line emits what it has to. -/
theorem emitted_at_line {l last : Layout} {before after : List SourceLine} {rows : List Row}
    (hscan : l.scan (before ++ line :: after) = .ok last)
    (hrows : rowsFrom last.labels l.address (before ++ line :: after) = .ok rows) :
    ∃ here earlier row later, l.scan before = .ok here ∧
      rowsFrom last.labels l.address before = .ok earlier ∧
      rows = earlier ++ (row.toList ++ later) ∧
      here.address = l.address + (earlier.flatMap Row.image).length ∧
      Emitted last.labels here.address (Statement.ofText line.text) row := by
  rw [scan_append] at hscan
  obtain ⟨here, hbefore, hscan⟩ := bind_ok_iff.1 hscan
  obtain ⟨next, hstep, hafter⟩ := bind_ok_iff.1 hscan
  obtain ⟨earlier, more, hearlier, hmore, rfl⟩ := exists_rowsFrom_of_append hrows
  obtain ⟨row, later, hrow, -, rfl⟩ := rowsFrom_cons_eq_ok.1 hmore
  have haddress := scan_address hbefore hearlier
  rw [← haddress] at hrow
  refine ⟨here, earlier, row, later, hbefore, hearlier, rfl, haddress, ?_⟩
  exact emitted_of_goes (goes_of_step hstep) hrow
    fun name value => lookup_of_scan hafter

/-- **The two passes agree.** The address of a label is the base and the number of bytes that the
lines before it emit, and the same holds of the address at the end. Every line emits what it has to
where it is reached: an origin pads up to its address, and an operand for an address that is spelled
as a label is the address of the label. -/
theorem passes_agree {source : String} {base : Int} {a : Assembled}
    (h : assemble source base = .ok a) :
    let lines := sourceLines source.toList
    (∀ name value, a.labels.lookup name = some value ↔
      ∃ before line after earlier, lines = before ++ line :: after ∧
        Statement.ofText line.text = .label name ∧ rowsFrom a.labels base before = .ok earlier ∧
        value = base + (earlier.flatMap Row.image).length) ∧
    (∃ last, (Layout.mk [] base).scan lines = .ok last ∧ last.labels = a.labels ∧
      last.address = base + a.image.length) ∧
    ∀ before line after, lines = before ++ line :: after →
      ∃ earlier row later, rowsFrom a.labels base before = .ok earlier ∧
        a.rows = earlier ++ (row.toList ++ later) ∧
        Emitted a.labels (base + (earlier.flatMap Row.image).length)
          (Statement.ofText line.text) row := by
  intro lines
  obtain ⟨last, hscan, h⟩ := bind_ok_iff.1 h
  obtain ⟨rows, hrows, h⟩ := bind_ok_iff.1 h
  cases h
  change (Layout.mk [] base).scan lines = .ok last at hscan
  change rowsFrom last.labels base lines = .ok rows at hrows
  clear_value lines
  refine ⟨fun name value => ⟨fun hname => ?_, ?_⟩, ⟨last, hscan, rfl, scan_address hscan hrows⟩, ?_⟩
  · rcases exists_line_of_lookup hscan hname with hnone | hput
    · cases hnone
    -- The first pass has put the name there at a line that both passes come to alike.
    · obtain ⟨before, line, after, here, rfl, hbefore, hstatement, rfl⟩ := hput
      obtain ⟨here', earlier, -, -, hbefore', hearlier, -, haddress, -⟩ :=
        emitted_at_line hscan hrows
      rw [hbefore] at hbefore'
      cases hbefore'
      exact ⟨before, line, after, earlier, rfl, hstatement, hearlier, haddress⟩
  · rintro ⟨before, line, after, earlier, rfl, hstatement, hearlier, rfl⟩
    obtain ⟨here, earlier', row, -, -, hearlier', -, haddress, hemitted⟩ :=
      emitted_at_line hscan hrows
    rw [hearlier] at hearlier'
    cases hearlier'
    rw [hstatement, haddress] at hemitted
    -- The row of a label says that the table of all labels has its address.
    cases hemitted with
    | label stands => exact stands
    | content content => cases content
  · rintro before line after rfl
    obtain ⟨here, earlier, row, later, -, hearlier, hsum, haddress, hemitted⟩ :=
      emitted_at_line hscan hrows
    rw [haddress] at hemitted
    exact ⟨earlier, row, later, hearlier, hsum, hemitted⟩

/-- A jump to a label that is defined after it, and after an origin. -/
def forwardJump : String := "JP end\n.org 0x206\nend:\n.dw end"

theorem passes_agree_forwardJump :
    ∃ a, assemble forwardJump 0x200 = .ok a ∧
      a.image = [0x12, 0x06, 0x00, 0x00, 0x00, 0x00, 0x02, 0x06] ∧
      ∃ last, (Layout.mk [] 0x200).scan (sourceLines forwardJump.toList) = .ok last ∧
        last.labels = a.labels ∧ last.address = 0x200 + a.image.length := by
  have h : assemble forwardJump 0x200 = .ok ⟨[("end".toList, 0x206)],
      [⟨0x200, 0, [0x12, 0x06], "JP end".toList⟩, ⟨0x202, 4, [], ".org 0x206".toList⟩,
        ⟨0x206, 0, [0x02, 0x06], ".dw end".toList⟩]⟩ := by rfl
  exact ⟨_, h, rfl, (passes_agree h).2.1⟩

end ChipEight.Assembly
