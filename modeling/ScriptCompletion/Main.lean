import ScriptCompletion.CommandLine

/-!
# The program

Reads the arguments, the settings file and the script, and writes what the
command line answers.
-/

namespace ScriptCompletion.Main

open CommandLine

/-- The arguments of the program. -/
structure Arguments where
  line : Option Nat := none
  column : Option Nat := none
  settings : Option String := none
  json : Bool := false
  script : Option String := none
deriving Repr

/-- Read the arguments; nothing if they are malformed. -/
def Arguments.read?
    (arguments : Arguments) : List String → Option Arguments
  | [] =>
      some arguments
  | "--json" :: rest =>
      { arguments with json := true }.read? rest
  | "--no-color" :: rest =>
      arguments.read? rest
  | "--log-level" :: _ :: rest =>
      arguments.read? rest
  | "--config" :: path :: rest =>
      { arguments with settings := some path }.read? rest
  | "--line" :: number :: rest | "-l" :: number :: rest => do
      let line ← number.toNat?
      Arguments.read? { arguments with line := some line } rest
  | "--column" :: number :: rest | "-c" :: number :: rest => do
      let column ← number.toNat?
      Arguments.read? { arguments with column := some column } rest
  | path :: rest =>
      if path.startsWith "-" || arguments.script.isSome then
        none
      else
        { arguments with script := some path }.read? rest

/-- The bytes of a file, if it can be read. -/
def readFile? (path : String) : IO (Option ByteArray) := do
  try
    return some (← IO.FS.readBinFile path)
  catch _ =>
    return none

/-- The complaint with the path of the file that it is about. -/
def complaintLine
    (arguments : Arguments)
    (complaint : Complaint) : String :=
  let path :=
    match complaint with
    | .unreadableSettings | .malformedSettings =>
        arguments.settings
    | .unreadableScriptFile =>
        arguments.script
    | .refusedSettings _ | .unreadableInput =>
        none
  ": ".intercalate (["Error", complaint.headline] ++ path.toList)

/-- Answer one call of the program. -/
def answer (arguments : Arguments) : IO UInt32 := do
  let settings ← arguments.settings.mapM readFile?
  let script ←
    match arguments.script with
    | some path =>
        pure (ScriptSource.file (← readFile? path))
    | none =>
        pure (ScriptSource.input (← (← IO.getStdin).readBinToEnd))
  let invocation : Invocation :=
    { settings := settings
      script := script
      line := arguments.line
      column := arguments.column
      json := arguments.json }
  let reply := invocation.run
  IO.print reply.output
  match reply.complaint with
  | none =>
      pure ()
  | some complaint =>
      IO.eprintln (complaintLine arguments complaint)
  return reply.exitCode.toUInt32

end ScriptCompletion.Main

/-- The entry point of the program. -/
def main (words : List String) : IO UInt32 := do
  match ScriptCompletion.Main.Arguments.read? {} words with
  | none =>
      IO.eprintln "Error: malformed arguments"
      return 2
  | some arguments =>
      ScriptCompletion.Main.answer arguments
