import FluxFront.Diagnostic.Failure
import FluxFront.Diagnostic.Snippet
import FluxFront.Dump.Message
import FluxFront.Dump.Pretty
import FluxFront.Dump.Tree
import FluxFront.Files
import FluxFront.Grammar.Program
import FluxFront.Print.Tree
import FluxFront.Text.Trim

/-!
# The command

What the command line program does, as a function from its arguments, its environment and the files
it may read to what it writes and its exit code.

* **Exit codes**: 0 if the file is free of errors, 1 if it is not or cannot be read, 2 if the
  arguments are wrong.
* **Order**: on the error stream, what happened during the parse comes before the diagnostics.
-/

namespace FluxFront.Command

/-- The choices made by the arguments. -/
structure Options where
  input : Option String := none
  json : Bool := false
  print : Bool := false
  color : Bool := true
  debug : Bool := false
deriving DecidableEq, Repr

/-- The variables of the environment that count. -/
structure Environment where
  /-- Asks for a report of the parse. -/
  debug : Option String := none
  /-- Asks for colours although the output is no terminal. -/
  forceColor : Option String := none

/-- What a run wrote and how it ended. -/
structure Outcome where
  code : UInt32
  stdout : String := ""
  stderr : String := ""

/-- Whether a text starts with another. -/
def startsWith (start text : String) : Bool := (Text.behind? start.toList text.toList).isSome

/-- Reads the arguments; an unknown option or a second input makes them wrong. -/
def readArguments (options : Options) : List String → Option Options
  | [] => if options.input.isSome then some options else none
  | "--json" :: more => readArguments { options with json := true } more
  | "--print" :: more => readArguments { options with print := true } more
  | "--no-color" :: more => readArguments { options with color := false } more
  | "--debug" :: more => readArguments { options with debug := true } more
  | argument :: more =>
    if startsWith "--" argument || options.input.isSome then none
    else readArguments { options with input := some argument } more

/-- Whether the value of the environment variable asks for a report of the parse. -/
def asksForReport (value : String) : Bool :=
  let word := String.ofList ((Text.trimBlanks value.toList).map Char.toLower)
  !(["", "0", "false"].contains word)

/-- An event of a parse as a line. -/
def eventLine : Grammar.Event → String
  | .committed what position count =>
    "[parser] committed " ++ what ++ " at token " ++ toString position ++ " (" ++ toString count
      ++ " tokens)\n"
  | .skipped count resumed =>
    "[parser] synchronize skipped " ++ toString count ++ " token(s), resuming at "
      ++ resumed.describe ++ "\n"
  | .stuck token => "[parser] no progress at " ++ token.describe ++ ", forcing advance\n"
  | .retried token =>
    "[parser] no declaration at " ++ token.describe ++ ", retrying as a statement\n"

/-- The usage of the command. -/
def usage (name : String) : String :=
  "Usage: " ++ name ++ " <input.fx> [--json] [--print] [--no-color] [--debug]\n"

/-- Parses a text that was read and writes what the options ask for. -/
def report (options : Options) (input source : String) (debug color : Bool) : Outcome :=
  let result := parse source {}
  let json :=
    if options.json then
      (Dump.record [("program", result.program.dump), ("errors", result.errors.dump)]).pretty 0
        ++ "\n"
    else ""
  let printed := if options.print then result.program.print else ""
  let summary :=
    if result.errors.hasErrors || options.json || options.print then ""
    else input ++ ": ok (" ++ toString result.program.declarations.length ++ " declarations)\n"
  let events := if debug then String.join (result.events.map eventLine) else ""
  let messages := String.join (result.errors.errors.map fun e =>
    e.format source (some input) color ++ "\n")
  { code := if result.errors.hasErrors then 1 else 0
    stdout := json ++ printed ++ summary
    stderr := events ++ messages }

/-- The text that bytes encode. -/
def decode (bytes : ByteArray) : Except ReadFailure String :=
  match String.fromUTF8? bytes with
  | some text => .ok text
  | none => .error .notText

/-- Runs the command under a name. -/
def run (name : String) (arguments : List String) (env : Environment)
    (read : String → Except ReadFailure ByteArray) : Outcome :=
  match readArguments {} arguments with
  | some { input := some input, json, print, color, debug } =>
    let options : Options := { input := some input, json, print, color, debug }
    match read input >>= decode with
    | .ok source =>
      report options input source (debug || env.debug.any asksForReport)
        (color && env.forceColor.any (· != "0"))
    | .error failure =>
      let error := Diagnostic.ofFailure .input failure.message
      { code := 1, stderr := "Error: " ++ error.display ++ "\n" }
  | _ => { code := 2, stderr := usage name }

end FluxFront.Command
