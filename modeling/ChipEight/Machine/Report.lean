import ChipEight.Machine.Basic

/-!
# Reports about a machine

The text of a trace entry, and the text that shows the registers, the stack and the timers.
-/

namespace ChipEight

open Text (HexLayout)

/-! ## Trace entries -/

/-- Addresses without a marker: `200`. -/
def shortAddressLayout : HexLayout := ⟨"", true, 3⟩

/-- Words without a marker: `00E0`. -/
def shortWordLayout : HexLayout := ⟨"", true, 4⟩

/-- A text with blanks after it up to a width. -/
def padded (width : Nat) (text : String) : String :=
  text ++ String.ofList (List.replicate (width - text.length) ' ')

/-- A trace entry as a line. -/
def TraceEntry.text (entry : TraceEntry) : String :=
  shortAddressLayout.render entry.pc ++ ": " ++ shortWordLayout.render entry.word.toNat ++ "  " ++
    padded 20 entry.instruction.text ++ " -> " ++ shortAddressLayout.render entry.next

/-! ## Registers -/

namespace Machine

/-- Register values in the report. -/
def valueLayout : HexLayout := ⟨"0x", false, 4⟩

/-- The program counter and the index register in the report. -/
def pointerLayout : HexLayout := ⟨"0x", false, 5⟩

/-- A register and its value. -/
def registerText (m : Machine) (x : Register) : String :=
  "V" ++ registerLayout.render x.val ++ " = " ++ valueLayout.render (m.registers.get x).toNat

/-- The line for four registers from `first` on. -/
def registerLine (m : Machine) (first : Nat) : String :=
  "  " ++ "  ".intercalate
    (((List.finRange 16).drop first).take 4 |>.map m.registerText)

/-- The line for the return addresses; there is none while the stack is empty. -/
def stackLines (m : Machine) : List String :=
  match m.registers.calls with
  | [] => []
  | calls =>
    ["  STACK = [" ++
      " ".intercalate (calls.map fun address => shortAddressLayout.render address.toNat) ++ "]"]

/-- The register that the machine waits to fill. -/
def waitText (m : Machine) : String :=
  if m.waiting then "V" ++ registerLayout.render m.waitTarget.val else "-"

/-- The report on registers, stack and timers. -/
def report (m : Machine) : String :=
  let pointers := "  PC = " ++ pointerLayout.render m.registers.pc ++ "  I = " ++
    pointerLayout.render m.registers.index ++ s!"  SP = {m.registers.stack.length}"
  let timers := s!"  DT = {m.timers.delay}  ST = {m.timers.sound}  WAIT = " ++ m.waitText
  "\n".intercalate
    ([0, 4, 8, 12].map m.registerLine ++ [pointers] ++ m.stackLines ++ [timers])

end Machine

end ChipEight
