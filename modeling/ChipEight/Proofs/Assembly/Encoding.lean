import ChipEight.Proofs.Assembly.RoundTrip

/-!
# The word of an operation

**Theorem (`emit_operation`).** What an operation emits is one word, and the instruction that this
word is decoded to is the one the operation stands for. The registers of the operation, in order,
are the fields `x` and `y` of the word, its value is the field of its width, and the text of the
instruction, without any labels, emits the word again.

No value reaches into the bits of another field, since a value that is wider than its field is
refused, so the word holds every operand as it was written; and since the decoder reads the fields
where the encoder puts them, it suffices to look at the fields of encoded instructions.

There is one register that no field holds. The register of a jump with an offset is always `V0`, and
the bits that hold `x` in other words belong to its address (`x_jumpOffset`).
-/

namespace ChipEight.Assembly

open Text Instruction

/-! ## Operands and fields -/

/-- The registers among operands. -/
def registersOf : List Operand → List Register
  | [] => []
  | .register r :: rest => r :: registersOf rest
  | _ :: rest => registersOf rest

/-- The value of the operand is the field of the word that is as wide as it. -/
def IsField (word : UInt16) : Operand → Prop
  | .byte value => Word.byte word = value
  | .address target => Word.address word = target
  | .count rows => Word.n word = rows
  | _ => True

/-- The value that an instruction is written with is the field of its word. -/
theorem isField_written {i : Instruction} {operands : List Operand}
    (hwritten : WrittenWith i operands) : ∀ operand ∈ operands, IsField i.encode operand := by
  cases hwritten with
  | shift shifts x => simp [IsField]
  | parts =>
    cases i with
    | skip condition =>
      cases condition <;> simp [parts, Condition.parts, IsField, encode, byte_packByte]
    | arith op x y =>
      simp only [parts]
      split <;> simp [IsField]
    | _ => simp [parts, IsField, encode, address_pack, byte_packByte, n_packNibbles]

/-- The registers that an instruction is written with are the first fields of its word. -/
theorem registersOf_written {i : Instruction} {operands : List Operand}
    (hwritten : WrittenWith i operands) (hoffset : ∀ target, i ≠ .jumpOffset target) :
    registersOf operands <+: [Word.x i.encode, Word.y i.encode] := by
  cases hwritten with
  | @shift op shifts x =>
    have hn := op.nibble_lt
    simp [registersOf, encode, x_packNibbles, y_packNibbles, hn]
  | parts =>
    cases i with
    -- The `V0` of such a jump is the exception, and excluded.
    | jumpOffset target => exact absurd rfl (hoffset target)
    | skip condition =>
      cases condition with
      | byteEq x value | byteNe x value =>
        have hvalue : value.toNat < 256 := value.toNat_lt
        simp [parts, Condition.parts, registersOf, encode, x_packByte, hvalue]
      | regEq x y | regNe x y =>
        simp [parts, Condition.parts, registersOf, encode, x_packNibbles,
          y_packNibbles]
      | keyDown x | keyUp x =>
        simp [parts, Condition.parts, registersOf, encode, x_packByte]
    | arith op x y =>
      have hn := op.nibble_lt
      simp only [parts]
      split <;> simp [registersOf, encode, x_packNibbles, y_packNibbles, hn]
    | setByte x value | addByte x value | random x value =>
      have hvalue : value.toNat < 256 := value.toNat_lt
      simp [parts, registersOf, encode, x_packByte, hvalue]
    | _ => simp [parts, registersOf, encode, x_packByte, x_packNibbles, y_packNibbles]

/-! ## The word -/

theorem emit_operation_eq_ok {labels : Labels} {mnemonic rest : List Char} {bytes : List UInt8} :
    (Statement.operation mnemonic rest).emit labels = .ok bytes ↔
      ∃ i, (Operation.mk labels mnemonic rest).StandsFor i ∧ Word.toBytes i.encode = bytes := by
  simp only [Statement.emit, bind_ok_iff, Operation.instruction_eq_ok_iff, pure_ok_iff]

/-- **What an operation emits is the word of the one instruction that it stands for.** Its operands
are the fields of the word, the `V0` of a jump with an offset apart, and the text of the instruction
emits the same word. -/
theorem emit_operation {labels : Labels} {mnemonic rest : List Char} {bytes : List UInt8}
    (h : (Statement.operation mnemonic rest).emit labels = .ok bytes) :
    let o : Operation := ⟨labels, mnemonic, rest⟩
    ∃ word operands, bytes = Word.toBytes word ∧ word.toNat ≤ 0xFFFF ∧
      (o.StandsFor (decode word) ∧ ∀ i, o.StandsFor i → i = decode word) ∧
      (WrittenWith (decode word) operands ∧ o.Reads operands) ∧
      ((∀ target, decode word ≠ .jumpOffset target) →
        registersOf operands <+: [Word.x word, Word.y word]) ∧
      (∀ operand ∈ operands, IsField word operand) ∧
      (Statement.ofText (decode word).text.toList).emit [] = .ok bytes := by
  intro o
  obtain ⟨i, hstands, rfl⟩ := emit_operation_eq_ok.1 h
  obtain ⟨operands, hwritten, hreads⟩ := hstands.operands
  have hdecode : decode i.encode = i := decode_encode hstands.known
  have hword := i.encode.toNat_lt
  refine ⟨i.encode, operands, rfl, by omega, ?_⟩
  rw [hdecode]
  refine ⟨⟨hstands, fun j hj => ?_⟩, ⟨hwritten, hreads⟩, registersOf_written hwritten,
    isField_written hwritten, (emits_known hstands.known).emit⟩
  -- An operation is read as one instruction, so whatever it stands for is that one.
  have hi := Operation.instruction_eq_ok_iff.2 hstands
  rw [Operation.instruction_eq_ok_iff.2 hj] at hi
  exact Except.ok.inj hi

/-- A negative byte is emitted as the byte that stands for it. -/
theorem emit_operation_negative :
    (Statement.operation "ld".toList "v1, -2".toList).emit [] = .ok (Word.toBytes 0x61FE) ∧
      ∃ word, Word.toBytes 0x61FE = Word.toBytes word ∧
        (Operation.mk [] "ld".toList "v1, -2".toList).StandsFor (decode word) := by
  have h : (Statement.operation "ld".toList "v1, -2".toList).emit [] =
      .ok (Word.toBytes 0x61FE) := by rfl
  obtain ⟨word, -, hword, -, ⟨hstands, -⟩, -⟩ := emit_operation h
  exact ⟨h, word, hword, hstands⟩

/-- The `V0` of a jump with an offset is in no field of the word: where other words have `x`, this
one has a part of its address. -/
theorem x_jumpOffset :
    let o : Operation := ⟨[], "JP".toList, "V0, 0x300".toList⟩
    (Statement.operation o.mnemonic o.rest).emit o.labels = .ok (Word.toBytes 0xB300) ∧
      readRegister? (o.operand 0) = some firstRegister ∧ Word.x 0xB300 ≠ firstRegister :=
  ⟨rfl, rfl, by decide⟩

end ChipEight.Assembly
