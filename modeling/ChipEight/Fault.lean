import ChipEight.Text.Hexadecimal

/-!
# Faults

What can stop a machine, each as a cause with the numbers that belong to it, and what can keep a
program from being loaded. The wording of each stands in one function.
-/

namespace ChipEight

open Text (HexLayout)

/-- Addresses in the texts of faults. -/
def Fault.addressLayout : HexLayout := ⟨"0x", false, 6⟩

/-- The program counter and the load address in the texts of faults. -/
def Fault.counterLayout : HexLayout := ⟨"0x", false, 5⟩

/-- The number of return addresses that the call stack holds. -/
def stackDepth : Nat := 16

/-- What can go wrong while a machine is used. -/
inductive Fault where
  /-- A byte outside memory was asked for. -/
  | memory (address : Int)
  /-- The program counter would leave memory. -/
  | programCounter (target : Int)
  /-- A call with the stack full. -/
  | stackOverflow
  /-- A return with the stack empty. -/
  | stackUnderflow
  /-- The word at the program counter stands for no instruction. -/
  | invalidOpcode (pc : Int) (word : UInt16)
  /-- A key event with a code that no key has. -/
  | keyOutOfRange (code : Int)
  deriving Repr, DecidableEq

/-- The text of a fault. -/
def Fault.message : Fault → String
  | .memory address => "Memory fault @ " ++ Fault.addressLayout.render address
  | .programCounter target => "PC out of range: " ++ Fault.addressLayout.render target
  | .stackOverflow => s!"Call stack full ({stackDepth} entries)"
  | .stackUnderflow => "Return with empty call stack"
  | .invalidOpcode pc word =>
    "Invalid opcode " ++ Fault.addressLayout.render word.toNat ++ " @ " ++
      Fault.counterLayout.render pc
  | .keyOutOfRange code => s!"Key code out of range: {code}"

/-- Why a file could not be read. -/
inductive FileProblem where
  | missing
  | isDirectory
  | notDirectory
  | nameTooLong
  deriving Repr, DecidableEq

/-- The text of a file problem. -/
def FileProblem.message : FileProblem → String
  | .missing => "No such file or directory"
  | .isDirectory => "Is a directory"
  | .notDirectory => "Not a directory"
  | .nameTooLong => "File name too long"

/-- Why a program could not be loaded. -/
inductive LoadError where
  /-- The program does not fit between `base` and the end of memory. -/
  | tooLarge (length : Nat) (base : Int) (size : Nat)
  /-- The file cannot be read. -/
  | unreadable (path : String) (problem : FileProblem)
  /-- The path has a null character in it, which no path has. -/
  | nullInPath
  deriving Repr, DecidableEq

/-- The text of a load error. -/
def LoadError.message : LoadError → String
  | .tooLarge length base size =>
    s!"Program of {length} bytes does not fit at " ++ Fault.counterLayout.render base ++
      s!" ({size - base} bytes available)"
  | .unreadable path problem => s!"Cannot read '{path}': " ++ problem.message
  | .nullInPath => "embedded null byte"

end ChipEight
