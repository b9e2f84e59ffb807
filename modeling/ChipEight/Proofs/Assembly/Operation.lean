import ChipEight.Assembly.Operation
import ChipEight.Instruction.Lemmas
import ChipEight.Instruction.Text
import ChipEight.Proofs.Result
import ChipEight.Proofs.Text.Cutting

/-!
# What an operation stands for

An operation stands for an instruction if it has the mnemonic of the instruction and says its
operands, one after the other (`Operation.StandsFor`). This is told without regard to the order in
which an assembler tries the forms of a mnemonic. All that is left of that order is that a text
which says a register or a name is not taken for a byte where the mnemonic has a form for it.

**Theorem (`instruction_eq_ok_iff`).** An operation is read as an instruction if and only if it
stands for that instruction.

Each reader of an operand gives exactly what the operand says, so both directions come down to the
number of operands and to which form is tried first.
-/

namespace ChipEight.Assembly

open Text Instruction

/-! ## Values -/

/-- The value that a text stands for: the address of a label, or the integer that is written. -/
def valueOf? (labels : Labels) (token : List Char) : Option Int :=
  (labels.lookup (trim token)).or (readImmediate token).toOption

/-- Blanks at the ends of an integer do not count. -/
theorem readImmediate_congr {a b : List Char} (h : trim a = trim b) :
    readImmediate a = readImmediate b := by
  unfold readImmediate
  rw [h]

theorem fitBits_eq_ok {bits n : Nat} {value : Int} :
    fitBits bits value = .ok n ↔
      (n : Int) = value ∧ n < 1 <<< bits ∨
        bits = 8 ∧ -128 ≤ value ∧ value < 0 ∧ (n : Int) = value + 256 := by
  unfold fitBits
  split
  · simp only [Except.ok.injEq]
    omega
  · split
    · simp only [Except.ok.injEq]
      omega
    · simp only [reduceCtorEq, false_iff]
      omega

theorem resolve_eq_ok {labels : Labels} {bits n : Nat} {token : List Char} :
    resolve labels bits token = .ok n ↔
      ∃ value, valueOf? labels token = some value ∧ fitBits bits value = .ok n := by
  have htrim := readImmediate_congr (trim_trim token)
  unfold resolve valueOf?
  cases hlabel : labels.lookup (trim token) with
  | some address => simp [hlabel]
  | none => cases hread : readImmediate token <;> simp [hlabel, htrim, hread, Except.toOption]

/-! ## Operands -/

/-- An operand of a list of operands has no blanks at its ends. -/
theorem trim_of_mem_splitOperands {cs token : List Char} (h : token ∈ splitOperands cs) :
    trim token = token := by
  obtain ⟨piece, -, rfl⟩ := List.mem_map.1 (List.mem_filter.1 h).1
  exact trim_trim piece

/-- The text says the operand. A byte may be negative, and is then the byte that stands for it. -/
inductive SaidBy (labels : Labels) (token : List Char) : Operand → Prop
  | register {r : Register} (named : readRegister? token = some r) :
      SaidBy labels token (.register r)
  | name {text : String} (same : fold (trim token) = fold (trim text.toList)) :
      SaidBy labels token (.name text)
  | byte {b : UInt8} {value : Int} (stands : valueOf? labels token = some value)
      (low : -128 ≤ value) (high : value < 256) (wraps : (b.toNat : Int) = value % 256) :
      SaidBy labels token (.byte b)
  | address {target : Address} (stands : valueOf? labels token = some (target.val : Int)) :
      SaidBy labels token (.address target)
  | count {rows : Fin 16} (stands : valueOf? labels token = some (rows.val : Int)) :
      SaidBy labels token (.count rows)

namespace Operation

variable {o : Operation} {k count : Nat}

/-- The operands of an operation have no blanks at their ends. -/
theorem trim_operand (o : Operation) (k : Nat) : trim (o.operand k) = o.operand k := by
  rw [operand, List.getD_eq_getElem?_getD]
  cases h : o.operands[k]? with
  | none => rfl
  | some token => exact trim_of_mem_splitOperands (List.mem_of_getElem? h)

theorem want_eq_ok {u : Unit} : o.want count = .ok u ↔ o.operands.length = count := by
  unfold want
  split <;> simp [*]

theorem register_eq_ok {r : Register} :
    o.register k = .ok r ↔ SaidBy o.labels (o.operand k) (.register r) := by
  have hsaid : SaidBy o.labels (o.operand k) (.register r) ↔
      readRegister? (o.operand k) = some r :=
    ⟨fun h => by cases h; assumption, .register⟩
  rw [hsaid, register]
  cases readRegister? (o.operand k) <;> simp

theorem byte_eq_ok {b : UInt8} :
    o.byte k = .ok b ↔ SaidBy o.labels (o.operand k) (.byte b) := by
  have hb := b.toNat_lt
  simp only [byte, map_ok_iff, resolve_eq_ok, fitBits_eq_ok]
  constructor
  · rintro ⟨n, ⟨value, hvalue, hfits⟩, rfl⟩
    refine .byte hvalue ?_ ?_ ?_
    · omega
    · omega
    · rw [UInt8.toNat_ofNat']
      omega
  · rintro ⟨⟩
    next value hvalue hlow hhigh hwraps =>
    refine ⟨b.toNat, ⟨value, hvalue, ?_⟩, UInt8.ofNat_toNat⟩
    by_cases hneg : value < 0
    · exact .inr ⟨trivial, hlow, hneg, by omega⟩
    · exact .inl ⟨by omega, hb⟩

theorem address_eq_ok {target : Address} :
    o.address k = .ok target ↔ SaidBy o.labels (o.operand k) (.address target) := by
  have htarget := target.isLt
  simp only [address, map_ok_iff, resolve_eq_ok, fitBits_eq_ok, Fin.ext_iff, Word.address,
    UInt16.toNat_ofNat']
  constructor
  · rintro ⟨n, ⟨value, hvalue, hfits⟩, hn⟩
    refine .address (hvalue.trans (congrArg some ?_))
    omega
  · rintro ⟨⟩
    next hvalue =>
    refine ⟨target.val, ⟨target.val, hvalue, ?_⟩, ?_⟩
    · omega
    · omega

theorem rows_eq_ok {rows : Fin 16} :
    o.rows k = .ok rows ↔ SaidBy o.labels (o.operand k) (.count rows) := by
  have hrows := rows.isLt
  simp only [Operation.rows, map_ok_iff, resolve_eq_ok, fitBits_eq_ok, Fin.ext_iff, Word.n,
    UInt16.toNat_ofNat']
  constructor
  · rintro ⟨n, ⟨value, hvalue, hfits⟩, hn⟩
    refine .count (hvalue.trans (congrArg some ?_))
    omega
  · rintro ⟨⟩
    next hvalue =>
    refine ⟨rows.val, ⟨rows.val, hvalue, ?_⟩, ?_⟩
    · omega
    · omega

end Operation

/-! ## Tables of names -/

section Table

variable {α : Type} {table : List (String × α)} {cs a b : List Char} {x : α}

theorem mem_of_find? (h : (table.find? fun entry => isName cs entry.1).map (·.2) = some x) :
    ∃ name, (name, x) ∈ table ∧ fold cs = name.toList := by
  obtain ⟨⟨name, y⟩, hfind, hy⟩ := Option.map_eq_some_iff.1 h
  have hxy : y = x := hy
  subst hxy
  have hname := List.find?_some hfind
  exact ⟨name, List.mem_of_find?_eq_some hfind, eq_of_beq hname⟩

/-- Where nothing has two names, two texts that name one thing differ in their case at most. -/
theorem fold_eq_of_find? (honce : ∀ e ∈ table, ∀ e' ∈ table, e.2 = e'.2 → e.1 = e'.1)
    (ha : (table.find? fun entry => isName a entry.1).map (·.2) = some x)
    (hb : (table.find? fun entry => isName b entry.1).map (·.2) = some x) : fold a = fold b := by
  obtain ⟨name, hname, hfold⟩ := mem_of_find? ha
  obtain ⟨name', hname', hfold'⟩ := mem_of_find? hb
  have heq : name = name' := honce _ hname _ hname' rfl
  rw [hfold, hfold', heq]

end Table

/-! ## Kinds -/

theorem readRegister?_congr {a b : List Char} (h : fold (trim a) = fold (trim b)) :
    readRegister? a = readRegister? b := by
  unfold readRegister?
  rw [h]

theorem kind_congr {a b : List Char} (h : fold (trim a) = fold (trim b)) :
    OperandKind.ofText a = OperandKind.ofText b := by
  unfold OperandKind.ofText isName
  rw [readRegister?_congr h, h]

theorem kind_of_register {token : List Char} {r : Register} (h : readRegister? token = some r) :
    OperandKind.ofText token = .register := by
  unfold OperandKind.ofText
  rw [h]
  rfl

theorem kind_eq_iff {token : List Char} {kind : OperandKind} (hvalue : kind ≠ .value) :
    OperandKind.ofText token = kind ↔
      (readRegister? token).isSome = true ∧ kind = .register ∨
        readRegister? token = none ∧
          (kindNames.find? fun entry => isName (trim token) entry.1).map (·.2) = some kind := by
  unfold OperandKind.ofText
  cases readRegister? token with
  | some r => simp [eq_comm]
  | none =>
    cases (kindNames.find? fun entry => isName (trim token) entry.1).map (·.2) with
    | none => simp [hvalue.symm]
    | some found => simp

theorem find?_of_kind {token : List Char} {kind : OperandKind}
    (h : OperandKind.ofText token = kind) (hregister : kind ≠ .register) (hvalue : kind ≠ .value) :
    (kindNames.find? fun entry => isName (trim token) entry.1).map (·.2) = some kind := by
  rcases (kind_eq_iff hvalue).1 h with ⟨-, hkind⟩ | ⟨-, hfind⟩
  · exact absurd hkind hregister
  · exact hfind

/-- A text of the kind of a name says the name. -/
theorem saidBy_name (labels : Labels) {token : List Char} (text : String) {kind : OperandKind}
    (h : OperandKind.ofText token = kind) (htext : OperandKind.ofText text.toList = kind)
    (hregister : kind ≠ .register) (hvalue : kind ≠ .value) :
    SaidBy labels token (.name text) := by
  exact .name (fold_eq_of_find? (by decide) (find?_of_kind h hregister hvalue)
    (find?_of_kind htext hregister hvalue))

theorem kind_eq_iff_isName (token : List Char) (kind : OperandKind) (name : String)
    (hname : OperandKind.ofText name.toList = kind)
    (hsmall : fold (trim name.toList) = name.toList) (hregister : kind ≠ .register)
    (hvalue : kind ≠ .value) :
    OperandKind.ofText token = kind ↔ isName (trim token) name = true := by
  unfold isName
  rw [beq_iff_eq]
  constructor
  · intro h
    rw [fold_eq_of_find? (by decide) (find?_of_kind h hregister hvalue)
      (find?_of_kind hname hregister hvalue), hsmall]
  · intro h
    rw [← hname]
    exact kind_congr (h.trans hsmall.symm)

theorem kind_eq_register {token : List Char} :
    OperandKind.ofText token = .register ↔
      (readRegister? token).isSome = true ∨ isName (trim token) "vx" = true := by
  constructor
  · intro h
    rcases (kind_eq_iff (by decide)).1 h with ⟨hsome, -⟩ | ⟨-, hfind⟩
    · exact .inl hsome
    · obtain ⟨name, hmem, hfold⟩ := mem_of_find? hfind
      have hvx : name = "vx" := by simpa [kindNames] using hmem
      subst hvx
      exact .inr (beq_iff_eq.2 hfold)
  · rintro (h | h)
    · obtain ⟨r, hr⟩ := Option.isSome_iff_exists.1 h
      exact kind_of_register hr
    · have hvx : fold (trim "vx".toList) = "vx".toList := by decide
      have hkind : OperandKind.ofText "vx".toList = .register := by decide
      rw [← hkind]
      exact kind_congr ((eq_of_beq h).trans hvx.symm)

/-! ## Mnemonics -/

/-- What the mnemonic of an instruction stands for; a directive has none. -/
def mnemonicOf? : Instruction → Option Mnemonic
  | .clear => some .cls
  | .ret => some .ret
  | .jump _ | .jumpOffset _ => some .jp
  | .call _ => some .call
  | .skip (.byteEq _ _) | .skip (.regEq _ _) => some .se
  | .skip (.byteNe _ _) | .skip (.regNe _ _) => some .sne
  | .skip (.keyDown _) => some .skp
  | .skip (.keyUp _) => some .sknp
  | .addByte _ _ | .arith .add _ _ | .addIndex _ => some .add
  | .arith .copy _ _ => some .ld
  | .arith op _ _ => some (.arith op)
  | .random _ _ => some .rnd
  | .draw _ _ _ => some .drw
  | .unknown _ => none
  | _ => some .ld

theorem ofText?_mnemonic (i : Instruction) :
    Mnemonic.ofText? i.parts.1.toList = mnemonicOf? i := by
  cases i with
  | skip condition =>
    cases condition <;> (simp only [parts, Condition.parts, mnemonicOf?]; decide)
  | arith op x y => cases op <;> (simp only [parts, Arith.mnemonic, mnemonicOf?]; decide)
  | _ => simp only [parts, mnemonicOf?]; decide

theorem ofText?_congr {a b : List Char} (h : fold a = fold b) :
    Mnemonic.ofText? a = Mnemonic.ofText? b := by
  unfold Mnemonic.ofText? isName
  rw [h]

/-- Two spellings of one mnemonic differ in their case at most. -/
theorem fold_eq_of_ofText? {a b : List Char} {m : Mnemonic} (ha : Mnemonic.ofText? a = some m)
    (hb : Mnemonic.ofText? b = some m) : fold a = fold b :=
  fold_eq_of_find? (by decide) ha hb

/-! ## Lists of operands -/

/-- The operation has as many operands as are given, and says them in order. -/
structure Operation.Reads (o : Operation) (operands : List Operand) : Prop where
  length_eq : o.operands.length = operands.length
  said : ∀ k operand, operands[k]? = some operand → SaidBy o.labels (o.operand k) operand

/-- The operands with which an instruction may be written: a shift may leave out `V0`. -/
inductive WrittenWith : Instruction → List Operand → Prop
  | parts (i : Instruction) : WrittenWith i i.parts.2
  | shift {op : Arith} (shifts : op.isShift = true) (x : Register) :
      WrittenWith (.arith op x firstRegister) [.register x, .register firstRegister]

/-- Whether the mnemonic of an instruction has a form for a text in the place of its byte. -/
def otherForm : Instruction → List Char → Bool
  | .skip (.byteEq _ _), token | .skip (.byteNe _ _), token | .addByte _ _, token =>
    (readRegister? token).isSome
  | .setByte _ _, token =>
    (readRegister? token).isSome ||
      ["vx", "dt", "k", "[i]"].any fun name => isName (trim token) name
  | _, _ => false

theorem otherForm_setByte {x : Register} {value : UInt8} {token : List Char} :
    otherForm (.setByte x value) token = false ↔
      OperandKind.ofText token ≠ .register ∧ OperandKind.ofText token ≠ .delay ∧
        OperandKind.ofText token ≠ .key ∧ OperandKind.ofText token ≠ .indirect := by
  have hdelay := kind_eq_iff_isName token .delay "dt" (by decide) (by decide) (by decide)
    (by decide)
  have hkey := kind_eq_iff_isName token .key "k" (by decide) (by decide) (by decide) (by decide)
  have hindirect := kind_eq_iff_isName token .indirect "[i]" (by decide) (by decide) (by decide)
    (by decide)
  rw [Ne, Ne, Ne, Ne, kind_eq_register, hdelay, hkey, hindirect]
  simp [otherForm, and_assoc]

/-- The operation stands for the instruction. -/
structure Operation.StandsFor (o : Operation) (i : Instruction) : Prop where
  known : i.isKnown = true
  mnemonic : fold o.mnemonic = fold i.parts.1.toList
  operands : ∃ operands, WrittenWith i operands ∧ o.Reads operands
  /-- A byte is said by a text that says nothing else. -/
  byte : otherForm i (o.operand 1) = false

namespace Operation

variable {o : Operation} {a b c : Operand}

theorem reads_nil : o.Reads [] ↔ o.operands.length = 0 := by
  constructor
  · exact Reads.length_eq
  · exact fun h => ⟨h, fun _ _ hk => nomatch hk⟩

theorem reads_one :
    o.Reads [a] ↔ o.operands.length = 1 ∧ SaidBy o.labels (o.operand 0) a := by
  constructor
  · exact fun h => ⟨h.length_eq, h.said 0 a rfl⟩
  · rintro ⟨hlength, ha⟩
    refine ⟨hlength, fun k operand hk => ?_⟩
    match k, hk with
    | 0, rfl => exact ha

theorem reads_two : o.Reads [a, b] ↔ o.operands.length = 2 ∧
    SaidBy o.labels (o.operand 0) a ∧ SaidBy o.labels (o.operand 1) b := by
  constructor
  · exact fun h => ⟨h.length_eq, h.said 0 a rfl, h.said 1 b rfl⟩
  · rintro ⟨hlength, ha, hb⟩
    refine ⟨hlength, fun k operand hk => ?_⟩
    match k, hk with
    | 0, rfl => exact ha
    | 1, rfl => exact hb

theorem reads_three : o.Reads [a, b, c] ↔ o.operands.length = 3 ∧
    SaidBy o.labels (o.operand 0) a ∧ SaidBy o.labels (o.operand 1) b ∧
      SaidBy o.labels (o.operand 2) c := by
  constructor
  · exact fun h => ⟨h.length_eq, h.said 0 a rfl, h.said 1 b rfl, h.said 2 c rfl⟩
  · rintro ⟨hlength, ha, hb, hc⟩
    refine ⟨hlength, fun k operand hk => ?_⟩
    match k, hk with
    | 0, rfl => exact ha
    | 1, rfl => exact hb
    | 2, rfl => exact hc

theorem StandsFor.of_reads {i : Instruction} {m : Mnemonic}
    (hname : Mnemonic.ofText? o.mnemonic = some m) (hm : mnemonicOf? i = some m)
    (hreads : o.Reads i.parts.2) (hbyte : otherForm i (o.operand 1) = false) : o.StandsFor i where
  known := by
    cases i with
    | unknown word => cases hm
    | _ => rfl
  mnemonic := fold_eq_of_ofText? hname ((ofText?_mnemonic i).trans hm)
  operands := ⟨_, .parts i, hreads⟩
  byte := hbyte

/-! ## What is read stands for it -/

section Sound

variable {i : Instruction}

theorem jump_stands (hname : Mnemonic.ofText? o.mnemonic = some .jp) (h : o.jump = .ok i) :
    o.StandsFor i := by
  unfold jump at h
  by_cases htwo : o.operands.length = 2
  · rw [if_pos htwo] at h
    simp only [bind_ok_iff, register_eq_ok] at h
    obtain ⟨r, hr, h⟩ := h
    split at h
    · cases h
    · next hfirst =>
      have hr0 : r = firstRegister := Decidable.not_not.1 hfirst
      subst hr0
      simp only [bind_ok_iff, address_eq_ok, pure_ok_iff] at h
      obtain ⟨target, htarget, rfl⟩ := h
      exact .of_reads hname rfl (reads_two.2 ⟨htwo, hr, htarget⟩) rfl
  · rw [if_neg htwo] at h
    simp only [bind_ok_iff, want_eq_ok, address_eq_ok, pure_ok_iff] at h
    obtain ⟨-, hone, target, htarget, rfl⟩ := h
    exact .of_reads hname rfl (reads_one.2 ⟨hone, htarget⟩) rfl

theorem compare_stands {withRegister : Register → Register → Condition}
    {withByte : Register → UInt8 → Condition} (h : o.compare withRegister withByte = .ok i)
    (hregister : ∀ x y, o.Reads [.register x, .register y] → o.StandsFor (.skip (withRegister x y)))
    (hbyte : ∀ x value, o.Reads [.register x, .byte value] → o.isRegister 1 = false →
      o.StandsFor (.skip (withByte x value))) : o.StandsFor i := by
  unfold compare at h
  simp only [bind_ok_iff, want_eq_ok, register_eq_ok] at h
  obtain ⟨-, htwo, x, hx, h⟩ := h
  split at h
  · simp only [bind_ok_iff, register_eq_ok, pure_ok_iff] at h
    obtain ⟨y, hy, rfl⟩ := h
    exact hregister x y (reads_two.2 ⟨htwo, hx, hy⟩)
  · next hvalue =>
    simp only [bind_ok_iff, byte_eq_ok, pure_ok_iff] at h
    obtain ⟨value, hv, rfl⟩ := h
    exact hbyte x value (reads_two.2 ⟨htwo, hx, hv⟩) (Bool.eq_false_iff.2 hvalue)

/-- With both of its registers an operation stands for itself, also where it need not name the
second one. -/
theorem arith_stands {op : Arith} {x y : Register}
    (hname : Mnemonic.ofText? o.mnemonic = some (.arith op))
    (hreads : o.Reads [.register x, .register y]) : o.StandsFor (.arith op x y) := by
  have hm : mnemonicOf? (.arith op x y) = some (.arith op) := by
    -- Copies and additions have the mnemonics of loads and additions, and no entry of their own.
    obtain ⟨name, hmem, -⟩ := mem_of_find? hname
    cases op with
    | copy | add => exact absurd hmem (by simp [mnemonicNames])
    | _ => rfl
  refine ⟨rfl, fold_eq_of_ofText? hname ((ofText?_mnemonic _).trans hm), ?_, rfl⟩
  by_cases hshift : op.isShift = true ∧ y = firstRegister
  · obtain ⟨hop, rfl⟩ := hshift
    exact ⟨_, .shift hop x, hreads⟩
  · refine ⟨_, .parts _, ?_⟩
    simp only [parts]
    rwa [if_neg hshift]

theorem combine_stands {op : Arith} (hname : Mnemonic.ofText? o.mnemonic = some (.arith op))
    (h : o.combine op = .ok i) : o.StandsFor i := by
  unfold combine at h
  split at h
  · next hshift =>
    simp only [bind_ok_iff, register_eq_ok, pure_ok_iff] at h
    obtain ⟨x, hx, rfl⟩ := h
    have hreads : o.Reads [.register x] := reads_one.2 ⟨hshift.2, hx⟩
    rcases hshift.1 with rfl | rfl
    · exact .of_reads hname rfl hreads rfl
    · exact .of_reads hname rfl hreads rfl
  · simp only [bind_ok_iff, want_eq_ok, register_eq_ok, pure_ok_iff] at h
    obtain ⟨-, htwo, x, hx, y, hy, rfl⟩ := h
    exact arith_stands hname (reads_two.2 ⟨htwo, hx, hy⟩)

theorem addition_stands (hname : Mnemonic.ofText? o.mnemonic = some .add)
    (h : o.addition = .ok i) : o.StandsFor i := by
  unfold addition at h
  simp only [bind_ok_iff, want_eq_ok] at h
  obtain ⟨-, htwo, h⟩ := h
  split at h
  · next hindex =>
    -- An addition to the index register is told by the name `I`.
    have hname0 : SaidBy o.labels (o.operand 0) (.name "I") :=
      .name (by rw [o.trim_operand]; exact eq_of_beq hindex)
    simp only [bind_ok_iff, register_eq_ok, pure_ok_iff] at h
    obtain ⟨x, hx, rfl⟩ := h
    exact .of_reads hname rfl (reads_two.2 ⟨htwo, hname0, hx⟩) rfl
  · simp only [bind_ok_iff, register_eq_ok] at h
    obtain ⟨x, hx, h⟩ := h
    split at h
    · simp only [bind_ok_iff, register_eq_ok, pure_ok_iff] at h
      obtain ⟨y, hy, rfl⟩ := h
      exact .of_reads hname rfl (reads_two.2 ⟨htwo, hx, hy⟩) rfl
    -- The second operand is no register, so it is read as a byte.
    · next hvalue =>
      simp only [bind_ok_iff, byte_eq_ok, pure_ok_iff] at h
      obtain ⟨value, hv, rfl⟩ := h
      exact .of_reads hname rfl (reads_two.2 ⟨htwo, hx, hv⟩) (Bool.eq_false_iff.2 hvalue)

/-- The forms of a load from a name into a register. -/
theorem load_name_stands {form : Register → Instruction} (text : String)
    (hname : Mnemonic.ofText? o.mnemonic = some .ld) (htwo : o.operands.length = 2)
    (hkind : OperandKind.ofText (o.operand 1) = OperandKind.ofText text.toList)
    (hfixed : OperandKind.ofText text.toList ≠ .register ∧ OperandKind.ofText text.toList ≠ .value)
    (hform : ∀ x, mnemonicOf? (form x) = some .ld ∧
      (form x).parts.2 = [.register x, .name text] ∧ ∀ token, otherForm (form x) token = false)
    (h : (do return form (← o.register 0)) = .ok i) : o.StandsFor i := by
  simp only [bind_ok_iff, register_eq_ok, pure_ok_iff] at h
  obtain ⟨x, hx, rfl⟩ := h
  obtain ⟨hm, hparts, hother⟩ := hform x
  have hsaid := saidBy_name o.labels text hkind rfl hfixed.1 hfixed.2
  exact .of_reads hname hm (hparts ▸ reads_two.2 ⟨htwo, hx, hsaid⟩) (hother _)

/-- The forms of a load from a register into a name. -/
theorem load_register_stands {form : Register → Instruction} (text : String)
    (hname : Mnemonic.ofText? o.mnemonic = some .ld) (htwo : o.operands.length = 2)
    (hkind : OperandKind.ofText (o.operand 0) = OperandKind.ofText text.toList)
    (hfixed : OperandKind.ofText text.toList ≠ .register ∧ OperandKind.ofText text.toList ≠ .value)
    (hform : ∀ x, mnemonicOf? (form x) = some .ld ∧
      (form x).parts.2 = [.name text, .register x] ∧ ∀ token, otherForm (form x) token = false)
    (h : (do return form (← o.register 1)) = .ok i) : o.StandsFor i := by
  simp only [bind_ok_iff, register_eq_ok, pure_ok_iff] at h
  obtain ⟨x, hx, rfl⟩ := h
  obtain ⟨hm, hparts, hother⟩ := hform x
  have hsaid := saidBy_name o.labels text hkind rfl hfixed.1 hfixed.2
  exact .of_reads hname hm (hparts ▸ reads_two.2 ⟨htwo, hsaid, hx⟩) (hother _)

theorem loading_stands (hname : Mnemonic.ofText? o.mnemonic = some .ld)
    (h : o.loading = .ok i) : o.StandsFor i := by
  unfold loading at h
  simp only [bind_ok_iff, want_eq_ok] at h
  obtain ⟨-, htwo, h⟩ := h
  -- One case for each form, as the kinds of the operands pick them; a byte (`h_6`) is what is left
  -- once the second operand has none of the kinds that make another form with a register.
  split at h
  case h_1 h0 =>
    have hsaid := saidBy_name o.labels "I" h0 (by decide) (by decide) (by decide)
    simp only [bind_ok_iff, address_eq_ok, pure_ok_iff] at h
    obtain ⟨target, htarget, rfl⟩ := h
    exact .of_reads hname rfl (reads_two.2 ⟨htwo, hsaid, htarget⟩) rfl
  case h_2 h1 =>
    exact load_name_stands "DT" hname htwo h1 (by decide) (fun _ => ⟨rfl, rfl, fun _ => rfl⟩) h
  case h_3 h1 =>
    exact load_name_stands "K" hname htwo h1 (by decide) (fun _ => ⟨rfl, rfl, fun _ => rfl⟩) h
  case h_4 h1 =>
    exact load_name_stands "[I]" hname htwo h1 (by decide) (fun _ => ⟨rfl, rfl, fun _ => rfl⟩) h
  case h_5 =>
    simp only [bind_ok_iff, register_eq_ok, pure_ok_iff] at h
    obtain ⟨x, hx, y, hy, rfl⟩ := h
    exact .of_reads hname rfl (reads_two.2 ⟨htwo, hx, hy⟩) rfl
  case h_6 h0 hdelay hkey hindirect hregister =>
    simp only [bind_ok_iff, register_eq_ok, byte_eq_ok, pure_ok_iff] at h
    obtain ⟨x, hx, value, hvalue, rfl⟩ := h
    refine .of_reads hname rfl (reads_two.2 ⟨htwo, hx, hvalue⟩) ?_
    exact otherForm_setByte.2 ⟨hregister, hdelay, hkey, hindirect⟩
  case h_7 h0 _ =>
    exact load_register_stands "DT" hname htwo h0 (by decide) (fun _ => ⟨rfl, rfl, fun _ => rfl⟩) h
  case h_8 h0 _ =>
    exact load_register_stands "ST" hname htwo h0 (by decide) (fun _ => ⟨rfl, rfl, fun _ => rfl⟩) h
  case h_9 h0 _ =>
    exact load_register_stands "F" hname htwo h0 (by decide) (fun _ => ⟨rfl, rfl, fun _ => rfl⟩) h
  case h_10 h0 _ =>
    exact load_register_stands "B" hname htwo h0 (by decide) (fun _ => ⟨rfl, rfl, fun _ => rfl⟩) h
  case h_11 h0 _ =>
    exact load_register_stands "[I]" hname htwo h0 (by decide) (fun _ => ⟨rfl, rfl, fun _ => rfl⟩) h
  case h_12 => cases h

theorem instruction_stands (h : o.instruction = .ok i) : o.StandsFor i := by
  unfold instruction at h
  cases hname : Mnemonic.ofText? o.mnemonic with
  | none =>
    rw [hname] at h
    cases h
  | some m =>
    rw [hname] at h
    cases m with
    | cls | ret =>
      simp only [bind_ok_iff, want_eq_ok, pure_ok_iff] at h
      obtain ⟨-, hnone, rfl⟩ := h
      exact .of_reads hname rfl (reads_nil.2 hnone) rfl
    | jp => exact jump_stands hname h
    | call =>
      simp only [bind_ok_iff, want_eq_ok, address_eq_ok, pure_ok_iff] at h
      obtain ⟨-, hone, target, htarget, rfl⟩ := h
      exact .of_reads hname rfl (reads_one.2 ⟨hone, htarget⟩) rfl
    | se | sne =>
      exact compare_stands h (fun x y hreads => .of_reads hname rfl hreads rfl)
        fun x value hreads hvalue => .of_reads hname rfl hreads hvalue
    | arith op => exact combine_stands hname h
    | rnd =>
      simp only [bind_ok_iff, want_eq_ok, register_eq_ok, byte_eq_ok, pure_ok_iff] at h
      obtain ⟨-, htwo, x, hx, mask, hmask, rfl⟩ := h
      exact .of_reads hname rfl (reads_two.2 ⟨htwo, hx, hmask⟩) rfl
    | drw =>
      simp only [bind_ok_iff, want_eq_ok, register_eq_ok, rows_eq_ok, pure_ok_iff] at h
      obtain ⟨-, hthree, x, hx, y, hy, rows, hrows, rfl⟩ := h
      exact .of_reads hname rfl (reads_three.2 ⟨hthree, hx, hy, hrows⟩) rfl
    | skp | sknp =>
      simp only [bind_ok_iff, want_eq_ok, register_eq_ok, pure_ok_iff] at h
      obtain ⟨-, hone, x, hx, rfl⟩ := h
      exact .of_reads hname rfl (reads_one.2 ⟨hone, hx⟩) rfl
    | add => exact addition_stands hname h
    | ld => exact loading_stands hname h

end Sound

/-! ## What stands for it is read -/

namespace Reads

variable {operands : List Operand} {k : Nat} {x y : Register} {value : UInt8} {target : Address}

theorem want_eq (h : o.Reads operands) (count : Nat) (hcount : operands.length = count) :
    o.want count = .ok () :=
  want_eq_ok.2 (h.length_eq.trans hcount)

theorem register_eq (h : o.Reads operands) (hk : operands[k]? = some (.register x)) :
    o.register k = .ok x :=
  register_eq_ok.2 (h.said k _ hk)

theorem byte_eq (h : o.Reads operands) (hk : operands[k]? = some (.byte value)) :
    o.byte k = .ok value :=
  byte_eq_ok.2 (h.said k _ hk)

theorem address_eq (h : o.Reads operands) (hk : operands[k]? = some (.address target)) :
    o.address k = .ok target :=
  address_eq_ok.2 (h.said k _ hk)

theorem rows_eq {rows : Fin 16} (h : o.Reads operands) (hk : operands[k]? = some (.count rows)) :
    o.rows k = .ok rows :=
  rows_eq_ok.2 (h.said k _ hk)

theorem readRegister?_eq (h : o.Reads operands) (hk : operands[k]? = some (.register x)) :
    readRegister? (o.operand k) = some x := by
  cases h.said k _ hk with
  | register named => exact named

theorem isRegister (h : o.Reads operands) (hk : operands[k]? = some (.register x)) :
    o.isRegister k = true := by
  rw [Operation.isRegister, h.readRegister?_eq hk]
  rfl

theorem kind_register (h : o.Reads operands) (hk : operands[k]? = some (.register x)) :
    OperandKind.ofText (o.operand k) = .register :=
  kind_of_register (h.readRegister?_eq hk)

theorem fold_eq {text : String} (h : o.Reads operands) (hk : operands[k]? = some (.name text)) :
    fold (trim (o.operand k)) = fold (trim text.toList) := by
  cases h.said k _ hk with
  | name same => exact same

theorem kind_name {text : String} (h : o.Reads operands) (hk : operands[k]? = some (.name text)) :
    OperandKind.ofText (o.operand k) = OperandKind.ofText text.toList :=
  kind_congr (h.fold_eq hk)

theorem not_index (h : o.Reads operands) (hk : operands[k]? = some (.register x)) :
    ¬ isName (o.operand k) "i" = true := by
  intro hindex
  rw [← o.trim_operand] at hindex
  have hkind := (kind_eq_iff_isName _ .index "i" (by decide) (by decide) (by decide)
    (by decide)).2 hindex
  rw [h.kind_register hk] at hkind
  cases hkind

theorem compare_register (h : o.Reads [.register x, .register y])
    (withRegister : Register → Register → Condition) (withByte : Register → UInt8 → Condition) :
    o.compare withRegister withByte = .ok (.skip (withRegister x y)) := by
  rw [compare, ok_bind (h.want_eq 2 rfl), ok_bind (h.register_eq rfl),
    if_pos (h.isRegister rfl), ok_bind (h.register_eq rfl)]
  rfl

theorem compare_byte (h : o.Reads [.register x, .byte value])
    (hvalue : o.isRegister 1 = false)
    (withRegister : Register → Register → Condition) (withByte : Register → UInt8 → Condition) :
    o.compare withRegister withByte = .ok (.skip (withByte x value)) := by
  rw [compare, ok_bind (h.want_eq 2 rfl), ok_bind (h.register_eq rfl),
    if_neg (Bool.eq_false_iff.1 hvalue), ok_bind (h.byte_eq rfl)]
  rfl

theorem jump_address (h : o.Reads [.address target]) : o.jump = .ok (.jump target) := by
  have hlength : ¬ o.operands.length = 2 := by simp [h.length_eq]
  rw [Operation.jump, if_neg hlength, ok_bind (h.want_eq 1 rfl), ok_bind (h.address_eq rfl)]
  rfl

theorem jump_offset (h : o.Reads [.register firstRegister, .address target]) :
    o.jump = .ok (.jumpOffset target) := by
  have hlength : o.operands.length = 2 := h.length_eq
  rw [Operation.jump, if_pos hlength, ok_bind (h.register_eq rfl)]
  dsimp only
  rw [if_neg (fun hne => hne rfl), ok_bind (h.address_eq rfl)]
  rfl

theorem combine_two (h : o.Reads [.register x, .register y]) (op : Arith) :
    o.combine op = .ok (.arith op x y) := by
  have hlength : ¬ o.operands.length = 1 := by simp [h.length_eq]
  rw [combine, if_neg (fun hone => hlength hone.2), ok_bind (h.want_eq 2 rfl),
    ok_bind (h.register_eq rfl), ok_bind (h.register_eq rfl)]
  rfl

theorem combine_one (h : o.Reads [.register x]) {op : Arith} (hop : op = .shr ∨ op = .shl) :
    o.combine op = .ok (.arith op x firstRegister) := by
  rw [combine, if_pos ⟨hop, h.length_eq⟩, ok_bind (h.register_eq rfl)]
  rfl

/-- An operation between two registers is read with both of them, or as a shift with one. -/
theorem combine_eq {op : Arith} (h : o.Reads (arith op x y).parts.2) :
    o.combine op = .ok (.arith op x y) := by
  simp only [parts] at h
  by_cases hone : op.isShift = true ∧ y = firstRegister
  · rw [if_pos hone] at h
    obtain ⟨hshift, rfl⟩ := hone
    refine h.combine_one ?_
    cases op with
    | shr => exact .inl rfl
    | shl => exact .inr rfl
    | _ => cases hshift
  · rw [if_neg hone] at h
    exact h.combine_two op

theorem addition_index (h : o.Reads [.name "I", .register x]) :
    o.addition = .ok (.addIndex x) := by
  have hfold := h.fold_eq (k := 0) rfl
  rw [o.trim_operand] at hfold
  have hindex : isName (o.operand 0) "i" = true := beq_iff_eq.2 (hfold.trans (by decide))
  rw [addition, ok_bind (h.want_eq 2 rfl), if_pos hindex, ok_bind (h.register_eq rfl)]
  rfl

theorem addition_register (h : o.Reads [.register x, .register y]) :
    o.addition = .ok (.arith .add x y) := by
  rw [addition, ok_bind (h.want_eq 2 rfl), if_neg (h.not_index rfl),
    ok_bind (h.register_eq rfl), if_pos (h.isRegister rfl), ok_bind (h.register_eq rfl)]
  rfl

theorem addition_byte (h : o.Reads [.register x, .byte value])
    (hvalue : o.isRegister 1 = false) :
    o.addition = .ok (.addByte x value) := by
  rw [addition, ok_bind (h.want_eq 2 rfl), if_neg (h.not_index rfl),
    ok_bind (h.register_eq rfl), if_neg (Bool.eq_false_iff.1 hvalue), ok_bind (h.byte_eq rfl)]
  rfl

end Reads

theorem StandsFor.instruction_eq {i : Instruction} (h : o.StandsFor i) :
    o.instruction = .ok i := by
  have hname : Mnemonic.ofText? o.mnemonic = mnemonicOf? i :=
    (ofText?_congr h.mnemonic).trans (ofText?_mnemonic i)
  have hbyte := h.byte
  obtain ⟨operands, hwritten, hreads⟩ := h.operands
  rw [Operation.instruction, hname]
  cases hwritten with
  | @shift op shifts x =>
    cases op with
    | shr | shl => exact hreads.combine_two _
    | _ => cases shifts
  | parts =>
    -- Below, `show` picks the branch for loads, which is then chosen by the kinds of both operands.
    cases i with
    | unknown word => cases h.known
    | clear | ret => exact ok_bind (hreads.want_eq 0 rfl)
    | jump target => exact hreads.jump_address
    | jumpOffset target => exact hreads.jump_offset
    | call target =>
      exact (ok_bind (hreads.want_eq 1 rfl)).trans (ok_bind (hreads.address_eq rfl))
    | skip condition =>
      cases condition with
      | byteEq x value | byteNe x value => exact hreads.compare_byte hbyte _ _
      | regEq x y | regNe x y => exact hreads.compare_register _ _
      | keyDown x | keyUp x =>
        exact (ok_bind (hreads.want_eq 1 rfl)).trans (ok_bind (hreads.register_eq rfl))
    | addByte x value => exact hreads.addition_byte hbyte
    | addIndex x => exact hreads.addition_index
    | random x mask =>
      exact (ok_bind (hreads.want_eq 2 rfl)).trans
        ((ok_bind (hreads.register_eq rfl)).trans (ok_bind (hreads.byte_eq rfl)))
    | draw x y rows =>
      exact (ok_bind (hreads.want_eq 3 rfl)).trans ((ok_bind (hreads.register_eq rfl)).trans
        ((ok_bind (hreads.register_eq rfl)).trans (ok_bind (hreads.rows_eq rfl))))
    | arith op x y =>
      cases op with
      | copy =>
        show o.loading = _
        rw [Operation.loading, ok_bind (hreads.want_eq 2 rfl), hreads.kind_register rfl,
          hreads.kind_register rfl]
        exact (ok_bind (hreads.register_eq rfl)).trans (ok_bind (hreads.register_eq rfl))
      | add => exact hreads.addition_register
      | _ => exact hreads.combine_eq
    | setByte x value =>
      obtain ⟨hregister, hdelay, hkey, hindirect⟩ := otherForm_setByte.1 hbyte
      show o.loading = _
      rw [Operation.loading, ok_bind (hreads.want_eq 2 rfl), hreads.kind_register rfl]
      cases hkind : OperandKind.ofText (o.operand 1) with
      | register => exact absurd hkind hregister
      | delay => exact absurd hkind hdelay
      | key => exact absurd hkind hkey
      | indirect => exact absurd hkind hindirect
      | _ => exact (ok_bind (hreads.register_eq rfl)).trans (ok_bind (hreads.byte_eq rfl))
    | setIndex target =>
      show o.loading = _
      rw [Operation.loading, ok_bind (hreads.want_eq 2 rfl), hreads.kind_name rfl]
      exact ok_bind (hreads.address_eq rfl)
    | readDelay x | awaitKey x | load x =>
      show o.loading = _
      rw [Operation.loading, ok_bind (hreads.want_eq 2 rfl), hreads.kind_register rfl,
        hreads.kind_name rfl]
      exact ok_bind (hreads.register_eq rfl)
    | setDelay x | setSound x | glyph x | decimal x | store x =>
      show o.loading = _
      rw [Operation.loading, ok_bind (hreads.want_eq 2 rfl), hreads.kind_name rfl,
        hreads.kind_register rfl]
      exact ok_bind (hreads.register_eq rfl)

/-- **An operation is read as an instruction if and only if it stands for it.** -/
theorem instruction_eq_ok_iff {i : Instruction} : o.instruction = .ok i ↔ o.StandsFor i :=
  ⟨instruction_stands, StandsFor.instruction_eq⟩

end Operation

end ChipEight.Assembly
