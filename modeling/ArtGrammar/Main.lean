/-
  ArtGrammar.Main
  ────────────────────────────────
  **THE COMMAND LINE PROGRAM.**

  Reads the grammar file that the options name, and prints the outcome of the
  session.
-/
import ArtGrammar.CommandLine.Session

namespace ArtGrammar

/-- Whether a code of the system is the given one.  Some faults have their codes
with a minus sign. -/
def isSystemCode (code number : UInt32) : Bool := code = number || code = 0 - number

/-- The contents of a file. -/
def readGrammarFile (path : String) : IO (Except FileFault String) := do
  try
    return .ok (← IO.FS.readFile path)
  catch
    | .noFileOrDirectory .. => return .error .missing
    | .inappropriateType _ code reason =>
      if isSystemCode code 20 then return .error .notDirectory
      else if isSystemCode code 21 then return .error .isDirectory
      else return .error (.stated reason)
    | .invalidArgument _ code reason =>
      if isSystemCode code 36 then return .error .nameTooLong
      else return .error (.stated reason)
    | e => return .error (.stated (toString e))

/-- Runs a session and answers its exit code. -/
def runSession (args : List String) : IO UInt32 := do
  let file ← match (Options.parse? args).bind Options.grammar with
    | some path => readGrammarFile path
    | none => pure (.error .missing)
  let outcome := Outcome.ofArgs { files := fun _ => file } args
  IO.print outcome.stdout
  IO.eprint outcome.stderr
  return outcome.exit.toUInt32

end ArtGrammar

/-- Runs a session with the arguments of the program. -/
def main (args : List String) : IO UInt32 := ArtGrammar.runSession args
