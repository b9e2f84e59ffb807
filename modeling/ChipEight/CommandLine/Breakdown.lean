import ChipEight.CommandLine.Request
import ChipEight.Display.Window

/-!
# Breakdowns

What ends the command before it has an outcome of its own: a blank where a number is needed, a
window that cannot be opened, and a path that no file can have.
-/

namespace ChipEight.CommandLine

/-- Why the command has no outcome. -/
inductive Breakdown where
  /-- An option was left blank, and its number is needed. -/
  | blank (flag : Flag)
  /-- There is no window of the size that is asked for. -/
  | noWindow (cause : WindowError)
  /-- The path of the program has a null character in it. -/
  | nullInPath
  deriving Repr, DecidableEq

/-- The text of a breakdown. -/
def Breakdown.message : Breakdown → String
  | .blank .seed =>
    "The only supported seed types are: None,\nint, float, str, bytes, and bytearray."
  | .blank .frames => "'<' not supported between instances of 'int' and 'list'"
  | .blank _ => "'<' not supported between instances of 'list' and 'int'"
  | .noWindow cause => cause.message
  | .nullInPath => LoadError.nullInPath.message

/-- The number that was given for an option. -/
def Amount.forFlag (flag : Flag) : Amount → Except Breakdown Int
  | .number value => .ok value
  | .blank => .error (.blank flag)

end ChipEight.CommandLine
