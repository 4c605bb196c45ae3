import FluxFront.Command

/-!
# The command line program

Collects the arguments, the environment and the input file, runs the command, and writes what it
gives.
-/

namespace FluxFront.Main

/-- The contents of a file, or why they could not be read. -/
def readFile (path : String) : IO (Except ReadFailure ByteArray) := do
  try
    return .ok (← IO.FS.readBinFile path)
  catch error =>
    match error with
    | .noFileOrDirectory _ _ _ => return .error .missing
    | .inappropriateType _ code _ =>
      return .error (if isCode 20 code then .notDirectory else .directory)
    | .invalidArgument _ code _ =>
      return .error (if isCode 36 code then .nameTooLong else .other (toString error))
    | other => return .error (.other (toString other))
where
  /-- Some system calls give a code with its sign turned. -/
  isCode (expected code : UInt32) : Bool := code == expected || code == 0 - expected

end FluxFront.Main

open FluxFront in
/-- Runs the command on the arguments of the process. -/
def main (arguments : List String) : IO UInt32 := do
  let environment : Command.Environment :=
    { debug := ← IO.getEnv "FLUX_DEBUG", forceColor := ← IO.getEnv "CLICOLOR_FORCE" }
  let input := (Command.readArguments {} arguments).bind Command.Options.input
  let contents ← match input with
    | some path => Main.readFile path
    | none => pure (.error .missing)
  let outcome := Command.run "flux-parse" arguments environment fun _ => contents
  (← IO.getStdout).putStr outcome.stdout
  (← IO.getStderr).putStr outcome.stderr
  return outcome.code
