import ChipEight.Proofs.Assembly.Operation
import ChipEight.Proofs.Assembly.Spelling

/-!
# Reading instructions back

An operation with the mnemonic and the operands of an instruction, written out as a disassembler
writes them, is read as that instruction (`instruction_eq`). Every operand is said by its own text,
and a number is never taken for a register or for a name, so such an operation stands for the
instruction.
-/

namespace ChipEight.Assembly

open Text Instruction

/-! ## Values -/

theorem valueOf?_of_read {token : List Char} {value : Int} (h : readImmediate token = .ok value) :
    valueOf? [] token = some value := by
  rw [valueOf?, h]
  rfl

theorem radixOf_marker (rest : List Char) : radixOf ('0' :: 'x' :: rest) = .hexadecimal := rfl

theorem chars_marker {layout : HexLayout} (hmarker : layout.marker = "0x") (n : Nat) :
    ∃ rest, layout.chars n = '0' :: 'x' :: rest := by
  obtain ⟨zeros, h⟩ := layout.chars_natCast n
  have hlead : "0x".toList = ['0', 'x'] := by simp
  rw [hmarker, hlead] at h
  exact ⟨_, h⟩

theorem trim_chars {layout : HexLayout} (hmarker : layout.marker = "0x") (n : Nat) :
    trim (layout.chars n) = layout.chars n := by
  have hword : IsWord (layout.chars n) := isWord_chars (by rw [hmarker]; decide) n
  exact trim_of_all_isBare hword.2

theorem readImmediate_chars {layout : HexLayout} (hmarker : layout.marker = "0x") (n : Nat) :
    readImmediate (layout.chars n) = .ok (n : Int) := by
  have hread := readInt_chars (.inl hmarker) n
  obtain ⟨rest, hrest⟩ := chars_marker hmarker n
  have hradix : radixOf (layout.chars n) = .hexadecimal := by rw [hrest, radixOf_marker]
  simp only [readImmediate, trim_chars hmarker, hradix, hread]

theorem valueOf?_chars {layout : HexLayout} (hmarker : layout.marker = "0x") (n : Nat) :
    valueOf? [] (layout.chars n) = some (n : Int) :=
  valueOf?_of_read (readImmediate_chars hmarker n)

/-- A written number is resolved to itself. -/
theorem resolve_chars {layout : HexLayout} (hmarker : layout.marker = "0x") {bits n : Nat}
    (hfits : n < 1 <<< bits) : resolve [] bits (layout.chars n) = .ok n :=
  resolve_eq_ok.2 ⟨n, valueOf?_chars hmarker n, fitBits_eq_ok.2 (.inl ⟨rfl, hfits⟩)⟩

theorem readImmediate_count (value : Fin 16) :
    readImmediate (Operand.count value).text.toList = .ok (value.val : Int) := by
  have h : (readImmediate (Operand.count value).text.toList).toOption = some (value.val : Int) := by
    revert value
    decide
  cases hread : readImmediate (Operand.count value).text.toList with
  | error cause =>
    rw [hread] at h
    cases h
  | ok n =>
    rw [hread] at h
    exact congrArg Except.ok (Option.some.inj h)

/-! ## Kinds -/

theorem readRegister?_register (r : Register) :
    readRegister? (Operand.register r).text.toList = some r := by
  revert r
  decide

theorem readRegister?_chars {layout : HexLayout} (hmarker : layout.marker = "0x") (n : Nat) :
    readRegister? (layout.chars n) = none := by
  obtain ⟨rest, hrest⟩ := chars_marker hmarker n
  rw [readRegister?, trim_chars hmarker, hrest]
  simp [fold, foldChar]

theorem kind_chars {layout : HexLayout} (hmarker : layout.marker = "0x") (n : Nat) :
    OperandKind.ofText (layout.chars n) = .value := by
  have hregister := readRegister?_chars hmarker n
  obtain ⟨rest, hrest⟩ := chars_marker hmarker n
  rw [OperandKind.ofText, hregister, trim_chars hmarker, hrest]
  simp [kindNames, isName, fold, foldChar]

/-! ## Operands -/

/-- An operand is said by its own text, a whole word apart. -/
theorem saidBy_text {operand : Operand} (h : ∀ word, operand ≠ .word word) :
    SaidBy [] operand.text.toList operand := by
  cases operand with
  | register r => exact .register (readRegister?_register r)
  | byte value =>
    have hvalue := value.toNat_lt
    have htext : (Operand.byte value).text.toList = byteLayout.chars value.toNat :=
      String.toList_ofList
    rw [htext]
    exact .byte (valueOf?_chars rfl value.toNat) (by omega) (by omega) (by omega)
  | address target =>
    have htext : (Operand.address target).text.toList = addressLayout.chars target.val :=
      String.toList_ofList
    rw [htext]
    exact .address (valueOf?_chars rfl target.val)
  | count rows => exact .count (valueOf?_of_read (readImmediate_count rows))
  | word word => exact absurd rfl (h word)
  | name text => exact .name rfl

/-- There are no labels, and the operands are written like the ones given. -/
structure Operation.Writes (o : Operation) (operands : List Operand) : Prop where
  labels : o.labels = []
  operands : o.operands = operands.map (·.text.toList)

namespace Operation.Writes

variable {o : Operation} {operands : List Operand}

theorem operand_eq (h : o.Writes operands) {k : Nat} {operand : Operand}
    (hk : operands[k]? = some operand) : o.operand k = operand.text.toList := by
  rw [Operation.operand, h.operands, List.getD_eq_getElem?_getD, List.getElem?_map, hk]
  rfl

theorem reads (h : o.Writes operands) (hword : ∀ word, .word word ∉ operands) :
    o.Reads operands where
  length_eq := by rw [h.operands, List.length_map]
  said := by
    intro k operand hk
    rw [h.operand_eq hk, h.labels]
    refine saidBy_text fun word heq => hword word ?_
    rw [← heq]
    exact List.mem_of_getElem? hk

/-- A written byte is taken for nothing else. -/
theorem otherForm_eq (h : o.Writes operands) {value : UInt8} {i : Instruction}
    (hk : operands[1]? = some (.byte value)) : otherForm i (o.operand 1) = false := by
  have htext : o.operand 1 = byteLayout.chars value.toNat :=
    (h.operand_eq hk).trans String.toList_ofList
  have hregister : readRegister? (o.operand 1) = none := by
    rw [htext]
    exact readRegister?_chars rfl value.toNat
  cases i with
  | setByte x other =>
    have hkind : OperandKind.ofText (o.operand 1) = .value := by
      rw [htext]
      exact kind_chars rfl value.toNat
    simp [otherForm_setByte, hkind]
  | skip condition => cases condition <;> simp [otherForm, hregister]
  | _ => simp [otherForm, hregister]

end Operation.Writes

/-! ## Instructions -/

theorem word_not_mem_operands {i : Instruction} (hknown : i.isKnown = true) (word : UInt16) :
    .word word ∉ i.parts.2 := by
  cases i with
  | unknown other => cases hknown
  | skip condition => cases condition <;> simp [parts, Condition.parts]
  | arith op x y =>
    simp only [parts]
    split <;> simp
  | _ => simp [parts]

/-- What is written as an instruction is read as that instruction. -/
theorem instruction_eq {o : Operation} {i : Instruction} (hknown : i.isKnown = true)
    (hmnemonic : o.mnemonic = i.parts.1.toList) (h : o.Writes i.parts.2) :
    o.instruction = .ok i := by
  refine Operation.instruction_eq_ok_iff.2
    ⟨hknown, congrArg fold hmnemonic, ⟨_, .parts i, h.reads (word_not_mem_operands hknown)⟩, ?_⟩
  cases i with
  | setByte x value | addByte x value => exact h.otherForm_eq rfl
  | skip condition =>
    cases condition with
    | byteEq x value | byteNe x value => exact h.otherForm_eq rfl
    | _ => rfl
  | _ => rfl

end ChipEight.Assembly
