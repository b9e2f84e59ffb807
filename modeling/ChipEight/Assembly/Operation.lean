import ChipEight.Assembly.Operand

/-!
# Assembling one instruction

The mnemonic, in either case, selects how the operands are read. The operands are checked in the
order in which they are written, after their number, and the first one that is wrong is reported.
-/

namespace ChipEight.Assembly

open Text

/-- An instruction as it is written, and the labels that its operands may use. -/
structure Operation where
  labels : Labels
  /-- The mnemonic. -/
  mnemonic : List Char
  /-- Everything after the mnemonic. -/
  rest : List Char
  deriving Repr, DecidableEq

/-- What a mnemonic stands for. -/
inductive Mnemonic where
  | cls
  | ret
  | jp
  | call
  | se
  | sne
  | arith (op : Arith)
  | rnd
  | drw
  | skp
  | sknp
  | add
  | ld
  deriving Repr, DecidableEq

/-- The spellings of the mnemonics. -/
def mnemonicNames : List (String × Mnemonic) :=
  [("cls", .cls), ("ret", .ret), ("jp", .jp), ("call", .call), ("se", .se), ("sne", .sne),
    ("or", .arith .or), ("and", .arith .and), ("xor", .arith .xor), ("sub", .arith .sub),
    ("shr", .arith .shr), ("subn", .arith .subn), ("shl", .arith .shl), ("rnd", .rnd),
    ("drw", .drw), ("skp", .skp), ("sknp", .sknp), ("add", .add), ("ld", .ld)]

/-- The mnemonic that a text spells. -/
def Mnemonic.ofText? (cs : List Char) : Option Mnemonic :=
  (mnemonicNames.find? fun entry => isName cs entry.1).map (·.2)

namespace Operation

/-- The operands. -/
def operands (o : Operation) : List (List Char) := splitOperands o.rest

/-- The operand at a position, counted from zero. -/
def operand (o : Operation) (k : Nat) : List Char := o.operands.getD k []

/-- Refuse another number of operands. -/
def want (o : Operation) (count : Nat) : Except Complaint Unit :=
  if o.operands.length = count then .ok ()
  else .error (.operandCount o.mnemonic count o.operands.length)

/-- The operand at a position as a register. -/
def register (o : Operation) (k : Nat) : Except Complaint Register :=
  match readRegister? (o.operand k) with
  | some r => .ok r
  | none => .error (.needsRegister o.mnemonic (k + 1))

/-- Whether the operand at a position is a register. -/
def isRegister (o : Operation) (k : Nat) : Bool := (readRegister? (o.operand k)).isSome

/-- The operand at a position as a byte. -/
def byte (o : Operation) (k : Nat) : Except Complaint UInt8 :=
  (resolve o.labels 8 (o.operand k)).map UInt8.ofNat

/-- The operand at a position as an address. -/
def address (o : Operation) (k : Nat) : Except Complaint Address :=
  (resolve o.labels 12 (o.operand k)).map fun value => Word.address (UInt16.ofNat value)

/-- The operand at a position as a count of rows. -/
def rows (o : Operation) (k : Nat) : Except Complaint (Fin 16) :=
  (resolve o.labels 4 (o.operand k)).map fun value => Word.n (UInt16.ofNat value)

/-! ## The instructions -/

/-- A jump, with an offset if there are two operands. -/
def jump (o : Operation) : Except Complaint Instruction := do
  if o.operands.length = 2 then
    let r ← o.register 0
    if r ≠ firstRegister then throw .offsetRegister
    return .jumpOffset (← o.address 1)
  else
    o.want 1
    return .jump (← o.address 0)

/-- A skip on equality or inequality of a register and a register or a byte. -/
def compare (o : Operation) (withRegister : Register → Register → Condition)
    (withByte : Register → UInt8 → Condition) : Except Complaint Instruction := do
  o.want 2
  let x ← o.register 0
  if o.isRegister 1 then
    return .skip (withRegister x (← o.register 1))
  else
    return .skip (withByte x (← o.byte 1))

/-- An operation between two registers; a shift may name only one. -/
def combine (o : Operation) (op : Arith) : Except Complaint Instruction := do
  if (op = .shr ∨ op = .shl) ∧ o.operands.length = 1 then
    return .arith op (← o.register 0) firstRegister
  else
    o.want 2
    return .arith op (← o.register 0) (← o.register 1)

/-- An addition to the index register, or of a register or a byte to a register. -/
def addition (o : Operation) : Except Complaint Instruction := do
  o.want 2
  if isName (o.operand 0) "i" then
    return .addIndex (← o.register 1)
  else
    let x ← o.register 0
    if o.isRegister 1 then
      return .arith .add x (← o.register 1)
    else
      return .addByte x (← o.byte 1)

/-- A load, which the kinds of both operands select. -/
def loading (o : Operation) : Except Complaint Instruction := do
  o.want 2
  match OperandKind.ofText (o.operand 0), OperandKind.ofText (o.operand 1) with
  | .index, _ => return .setIndex (← o.address 1)
  | .register, .delay => return .readDelay (← o.register 0)
  | .register, .key => return .awaitKey (← o.register 0)
  | .register, .indirect => return .load (← o.register 0)
  | .register, .register => return .arith .copy (← o.register 0) (← o.register 1)
  | .register, _ => return .setByte (← o.register 0) (← o.byte 1)
  | .delay, .register => return .setDelay (← o.register 1)
  | .sound, .register => return .setSound (← o.register 1)
  | .glyph, .register => return .glyph (← o.register 1)
  | .decimal, .register => return .decimal (← o.register 1)
  | .indirect, .register => return .store (← o.register 1)
  | _, _ => throw (.unsupportedLoad o.rest)

/-- The instruction that is written. -/
def instruction (o : Operation) : Except Complaint Instruction := do
  match Mnemonic.ofText? o.mnemonic with
  | some .cls => do
    o.want 0
    return .clear
  | some .ret => do
    o.want 0
    return .ret
  | some .jp => o.jump
  | some .call => do
    o.want 1
    return .call (← o.address 0)
  | some .se => o.compare .regEq .byteEq
  | some .sne => o.compare .regNe .byteNe
  | some (.arith op) => o.combine op
  | some .rnd => do
    o.want 2
    return .random (← o.register 0) (← o.byte 1)
  | some .drw => do
    o.want 3
    return .draw (← o.register 0) (← o.register 1) (← o.rows 2)
  | some .skp => do
    o.want 1
    return .skip (.keyDown (← o.register 0))
  | some .sknp => do
    o.want 1
    return .skip (.keyUp (← o.register 0))
  | some .add => o.addition
  | some .ld => o.loading
  | none => throw (.unknownMnemonic o.mnemonic)

end Operation

end ChipEight.Assembly
