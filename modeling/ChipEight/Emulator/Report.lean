import ChipEight.Emulator.Basic
import ChipEight.Machine.Report

/-!
# Reports about an emulator

The text that shows the registers, the counters, and the latest of the words that were skipped.
-/

namespace ChipEight.Emulator

/-- How many of the skipped words a report shows. -/
def shownSkips : Nat := 8

/-- A skipped word and its address. -/
def skipText (skip : Int × UInt16) : String :=
  shortWordLayout.render skip.2.toNat ++ "@" ++ shortAddressLayout.render skip.1

/-- The line about the skipped words; there is none if there are none. -/
def skipLines (e : Emulator) : List String :=
  if e.skipped.isEmpty then []
  else
    let latest := e.skipped.toList.drop (e.skipped.size - shownSkips)
    [s!"  Skipped invalid: {e.skipped.size} (last: " ++
      ", ".intercalate (latest.map skipText) ++ ")"]

/-- The latest executed instruction. -/
def lastText (e : Emulator) : String :=
  match e.machine.last with
  | some instruction => instruction.text
  | none => "-"

/-- The report. -/
def report (e : Emulator) : String :=
  let counters := s!"  Instructions: {e.machine.executed}  Frames: {e.frames}  Last: " ++ e.lastText
  "\n".intercalate (["=== Registers ===", e.machine.report, counters] ++ e.skipLines)

end ChipEight.Emulator
