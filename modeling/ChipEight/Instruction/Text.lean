import ChipEight.Instruction.Basic
import ChipEight.Text.Hexadecimal

/-!
# Instructions as text

An instruction is written as its mnemonic, and after a blank its operands, divided by a comma and a
blank. Registers are written `V0` to `VF`, bytes and addresses in capital hexadecimal at their full
width, and the row count of `DRW` in decimal. A shift whose second register is `V0` leaves that
register out. A word that stands for no instruction is written as the directive that emits it, so
every text can be assembled.
-/

namespace ChipEight

open Text (HexLayout)

/-! ## Operands -/

/-- A byte operand: `0x2A`. -/
def byteLayout : HexLayout := ⟨"0x", true, 4⟩

/-- An address operand: `0x200`. -/
def addressLayout : HexLayout := ⟨"0x", true, 5⟩

/-- A whole word: `0x0123`. -/
def wordLayout : HexLayout := ⟨"0x", true, 6⟩

/-- A register number: `A`. -/
def registerLayout : HexLayout := ⟨"", true, 1⟩

/-- One operand as it is written. -/
inductive Operand where
  /-- A general register. -/
  | register (r : Register)
  /-- A byte, in hexadecimal. -/
  | byte (value : UInt8)
  /-- An address, in hexadecimal. -/
  | address (value : Address)
  /-- A count of rows, in decimal. -/
  | count (value : Fin 16)
  /-- A whole word, in hexadecimal. -/
  | word (value : UInt16)
  /-- A fixed name, such as `DT` or `[I]`. -/
  | name (text : String)
  deriving Repr, DecidableEq

/-- The text of an operand. -/
def Operand.text : Operand → String
  | .register r => "V" ++ registerLayout.render r.val
  | .byte value => byteLayout.render value.toNat
  | .address value => addressLayout.render value.val
  | .count value => toString value.val
  | .word value => wordLayout.render value.toNat
  | .name text => text

/-! ## Mnemonics -/

/-- The mnemonic of an operation between two registers. -/
def Arith.mnemonic : Arith → String
  | .copy => "LD"
  | .or => "OR"
  | .and => "AND"
  | .xor => "XOR"
  | .add => "ADD"
  | .sub => "SUB"
  | .shr => "SHR"
  | .subn => "SUBN"
  | .shl => "SHL"

/-- Whether the operation shifts one register. -/
def Arith.isShift : Arith → Bool
  | .shr | .shl => true
  | _ => false

/-- The mnemonic and the operands of a condition. -/
def Condition.parts : Condition → String × List Operand
  | .byteEq x value => ("SE", [.register x, .byte value])
  | .byteNe x value => ("SNE", [.register x, .byte value])
  | .regEq x y => ("SE", [.register x, .register y])
  | .regNe x y => ("SNE", [.register x, .register y])
  | .keyDown x => ("SKP", [.register x])
  | .keyUp x => ("SKNP", [.register x])

namespace Instruction

/-- The mnemonic and the operands of an instruction. -/
def parts : Instruction → String × List Operand
  | .clear => ("CLS", [])
  | .ret => ("RET", [])
  | .jump target => ("JP", [.address target])
  | .call target => ("CALL", [.address target])
  | .jumpOffset target => ("JP", [.register firstRegister, .address target])
  | .skip condition => condition.parts
  | .setByte x value => ("LD", [.register x, .byte value])
  | .addByte x value => ("ADD", [.register x, .byte value])
  | .arith op x y =>
    (op.mnemonic,
      if op.isShift ∧ y = firstRegister then [.register x] else [.register x, .register y])
  | .setIndex target => ("LD", [.name "I", .address target])
  | .random x mask => ("RND", [.register x, .byte mask])
  | .draw x y rows => ("DRW", [.register x, .register y, .count rows])
  | .readDelay x => ("LD", [.register x, .name "DT"])
  | .awaitKey x => ("LD", [.register x, .name "K"])
  | .setDelay x => ("LD", [.name "DT", .register x])
  | .setSound x => ("LD", [.name "ST", .register x])
  | .addIndex x => ("ADD", [.name "I", .register x])
  | .glyph x => ("LD", [.name "F", .register x])
  | .decimal x => ("LD", [.name "B", .register x])
  | .store x => ("LD", [.name "[I]", .register x])
  | .load x => ("LD", [.register x, .name "[I]"])
  | .unknown word => (".dw", [.word word])

/-- Operands with commas between them. -/
def joinOperands : List Operand → String
  | [] => ""
  | [operand] => operand.text
  | operand :: rest => operand.text ++ ", " ++ joinOperands rest

/-- The text of an instruction. -/
def text (i : Instruction) : String :=
  match i.parts with
  | (mnemonic, []) => mnemonic
  | (mnemonic, operands) => mnemonic ++ " " ++ joinOperands operands

instance : ToString Instruction := ⟨text⟩

end Instruction

end ChipEight
