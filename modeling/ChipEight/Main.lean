import ChipEight.CommandLine.Outcome

/-!
# The command

Reads the file that the command line names, carries the command line out and prints what came of
it. All decisions are made in `ChipEight.CommandLine`.
-/

namespace ChipEight.Main

open CommandLine

/-- What kept a file from being read. The system names the file if it could not be opened; a
directory can be opened, and only reading it fails. -/
def problemOf : IO.Error → FileProblem
  | .inappropriateType (some _) _ _ => .notDirectory
  | .inappropriateType none _ _ => .isDirectory
  | .invalidArgument _ _ _ => .nameTooLong
  | _ => .missing

/-- Read the file at a path. -/
def readFile (path : String) : IO (Except FileProblem (List UInt8)) := do
  try
    return .ok (← IO.FS.readBinFile path).toList
  catch error =>
    return .error (problemOf error)

/-- What a breakdown leaves behind. -/
def breakdownOutcome (e : Breakdown) : Outcome := { exit := 1, messages := line e.message }

/-- The outcome of a command line. Without a seed the random bytes start from a number that the
system draws. -/
def outcome (words : List String) : IO Outcome := do
  let result ←
    match parse words with
    | .ok (.run program settings) =>
      let contents ← readFile program
      let seed ← IO.rand 0 0xFFFFFFFF
      pure (perform program settings contents (Random.Source.ofSeed seed))
    | _ => pure (carryOut words (fun _ => .error .missing) (Random.Source.ofSeed 0))
  match result with
  | .ok outcome => return outcome
  | .error e => return breakdownOutcome e

end ChipEight.Main

/-- The command. -/
def main (words : List String) : IO UInt32 := do
  let outcome ← ChipEight.Main.outcome words
  IO.print outcome.out
  IO.eprint outcome.messages
  return outcome.exit.toUInt32
