import ChipEight.Instruction.Text

/-!
# Disassembly

An image as instructions: one line for every two bytes, and one for a byte that is left over, which
is written as the directive that emits it. The texts of the lines assemble to the image again.
-/

namespace ChipEight.Assembly

/-- A line of a disassembly. -/
structure DisassembledLine where
  /-- The address of the word. -/
  address : Int
  /-- The word, or the byte that is left over. -/
  word : UInt16
  text : String
  deriving Repr, DecidableEq

/-- The disassembly of an image that starts at an address. -/
def disassemble (address : Int) : List UInt8 → List DisassembledLine
  | [] => []
  | [byte] => [⟨address, byte.toUInt16, ".db " ++ byteLayout.render byte.toNat⟩]
  | high :: low :: rest =>
    let word := Word.ofBytes high low
    ⟨address, word, (Instruction.decode word).text⟩ :: disassemble (address + 2) rest

/-- The texts of a disassembly as a source text. -/
def sourceOf (lines : List DisassembledLine) : String := "\n".intercalate (lines.map (·.text))

end ChipEight.Assembly
