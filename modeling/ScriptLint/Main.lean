import ScriptLint.Command.Log
import ScriptLint.Command.Run

/-!
The program: it reads what the command line asks for, runs the command, and prints.

* `surroundings`: the files and the input that an invocation mentions.
* `main`: the exit code is 0 if all is well, 1 if a script does not pass, and 2 if
  the command fails or the command line makes no sense.
-/

namespace ScriptLint

/-- The variable that may name the file of a configuration. -/
def configVariable : String := "DOTSCRIPT_CONFIG"

/-! ### Reading -/

/-- The cause of a failure of the system. -/
def ReadError.ofSystem : IO.Error → ReadError
  | .noFileOrDirectory _ _ _ => missing
  | .inappropriateType none _ _ => isDirectory
  | .inappropriateType (some _) _ _ => notDirectory
  | e => other (toString e)

/-- The bytes of the file at a path. -/
def readPath (path : String) : IO (Except ReadError ByteArray) := do
  try
    return .ok (← IO.FS.readBinFile path)
  catch e =>
    return .error (.ofSystem e)

/-- All that is left of a stream. -/
partial def readRest (stream : IO.FS.Stream) (taken : ByteArray) : IO ByteArray := do
  let next ← stream.read 65536
  if next.isEmpty then return taken else readRest stream (taken ++ next)

/-- The paths of the files that an invocation mentions. -/
def Invocation.paths (invocation : Invocation) (fallback? : Option String) :
    List String :=
  (invocation.config? <|> fallback?).toList ++
    match invocation.command with
    | .check files _ _ => files.filter (!isStandardInput ·)
    | .builtins => []

/-- The invocation reads the standard input. -/
def Invocation.takesInput (invocation : Invocation) : Bool :=
  match invocation.command with
  | .check files _ _ => files.any isStandardInput
  | .builtins => false

/-- What an invocation can see: the files that it mentions, and the standard input if
it reads it. -/
def surroundings (invocation : Invocation) : IO Surroundings := do
  let fallback? ← IO.getEnv configVariable
  let files ← (invocation.paths fallback?).mapM fun path =>
    return (path, ← readPath path)
  let input ← if invocation.takesInput then
      readRest (← IO.getStdin) ByteArray.empty
    else
      pure ByteArray.empty
  return {
    file := fun path => (files.lookup path).getD (.error .missing)
    input
    configVariable? := fallback? }

/-! ### Texts -/

/-- How the program is called. -/
def usageText : String :=
  "Usage: dotscript [--config PATH] [-v|--verbose] <COMMAND>\n\n" ++
  "Commands:\n" ++
  "  check FILE... [-f|--format text|json] [--deny-warnings]\n" ++
  "            analyze scripts and report errors, warnings and cost estimates;\n" ++
  "            the file - is the standard input\n" ++
  "  builtins  list the built-in names\n" ++
  "  help      print this text\n"

/-- The name and the version of the program. -/
def versionText : String := "dotscript 0.1.0\n"

/-- Print the text for a command line that runs no command. -/
def printRefusal (refusal : Refusal) : IO Unit :=
  match refusal with
  | .help => IO.print usageText
  | .version => IO.print versionText
  | .nothingAsked => IO.eprint usageText
  | .usage => IO.eprint ("error: the arguments make no sense\n\n" ++ usageText)

end ScriptLint

open ScriptLint in
/-- Run the program with the arguments of its command line. -/
def main (arguments : List String) : IO UInt32 := do
  match Invocation.parse arguments with
  | .error refusal =>
    printRefusal refusal
    return refusal.exitCode.toUInt32
  | .ok invocation =>
    let outcome := invocation.run (← surroundings invocation)
    for line in logLines invocation.verbose outcome.events do
      IO.eprintln line
    IO.print outcome.output
    for text in outcome.errorText?.toList do
      IO.eprintln text
    return outcome.ending.exitCode.toUInt32
