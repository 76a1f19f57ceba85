import ScriptCompletion.Engine.Schedule
import ScriptCompletion.Suggestion.Rendering

namespace ScriptCompletion.CommandLine

/-!
# The command line

One call of the program reads a settings file and a script, completes the script
at the cursor and writes the suggestions.  The settings are judged before the
script is looked at.
-/

/-- What a settings file says. -/
structure Settings where
  engine : Configuration
  /-- The addresses behind names. -/
  names : List (String × String)
  /-- The documents at addresses. -/
  content : List (String × String)
  /-- The addresses of the manifests of further modules. -/
  remoteModules : List (String × String)
deriving Repr, DecidableEq

/-- Why a call gives no suggestions. -/
inductive Complaint where
  | unreadableSettings
  | malformedSettings
  | refusedSettings (error : ConfigurationError)
  | unreadableScriptFile
  | unreadableInput
deriving Repr, DecidableEq

namespace Complaint

/-- The wording of a complaint; the path of a file may follow it. -/
def headline : Complaint → String
  | .unreadableSettings =>
      "Cannot read config file"
  | .malformedSettings =>
      "Invalid config file"
  | .refusedSettings error =>
      error.toFailure.message
  | .unreadableScriptFile =>
      "Cannot read script file"
  | .unreadableInput =>
      "Cannot read stdin: stream did not contain valid UTF-8"

/-- The status with which the program ends. -/
def exitCode : Complaint → Nat
  | .unreadableSettings | .malformedSettings | .refusedSettings _ =>
      2
  | .unreadableScriptFile | .unreadableInput =>
      1

end Complaint

namespace Settings

/-- The settings without a file. -/
def initial : Settings where
  engine := {}
  names := []
  content := []
  remoteModules := []

/-- Decode a settings file, any section of which may be left out. -/
def ofValue? (value : Toml.Value) : Option Settings := do
  let fields ←
    value.fields? ["engine", "names", "content", "remote_modules"]
  let table := Toml.Value.map? Toml.Value.text?
  let engine ← Toml.fieldOr fields "engine" Configuration.ofValue? {}
  let names ← Toml.fieldOr fields "names" table []
  let content ← Toml.fieldOr fields "content" table []
  let remoteModules ← Toml.fieldOr fields "remote_modules" table []
  return { engine, names, content, remoteModules }

/-- Read a settings file. -/
def read (document : String) : Except Complaint Settings :=
  match (Toml.read? document).bind ofValue? with
  | none =>
      .error .malformedSettings
  | some settings =>
      match settings.engine.validate with
      | .error error =>
          .error (.refusedSettings error)
      | .ok _ =>
          .ok settings

/-- The engine with the settings. -/
def toEngine (settings : Settings) : Engine where
  registry :=
    (settings.remoteModules.foldl
      (fun (registry : Registry) (name, address) =>
        registry.registerRemote name address)
      Registry.builtin).directory
  collaborators := .offline settings.names settings.content
  configuration := settings.engine

end Settings

/-- Where the script comes from; a file that cannot be read has no bytes. -/
inductive ScriptSource where
  | input (bytes : ByteArray)
  | file (bytes : Option ByteArray)

/-- One call of the program. -/
structure Invocation where
  /-- The bytes of the settings file, if one is named and can be read. -/
  settings : Option (Option ByteArray)
  script : ScriptSource
  /-- The cursor line; the last line if it is left out. -/
  line : Option Nat
  /-- The cursor column; the end of the line if it is left out. -/
  column : Option Nat
  /-- Whether to write JSON. -/
  json : Bool

/-- What a call ends with. -/
structure Reply where
  exitCode : Nat
  output : String
  complaint : Option Complaint
deriving Repr, DecidableEq

/-- Drop all carriage returns at the end of a line. -/
def dropCarriageReturns (line : List Char) : List Char :=
  (line.reverse.dropWhile (· = '\r')).reverse

/-- The cursor of a call in its script. -/
def cursor
    (script : String)
    (line : Option Nat)
    (column : Option Nat) : Position :=
  let lines := Text.Lines.ofText script
  let line := line.getD lines.lastNumber
  let lineLength :=
    match lines.get? line with
    | none =>
        0
    | some characters =>
        (dropCarriageReturns characters).length
  ⟨line, column.getD lineLength⟩

namespace Invocation

/-- The settings of a call. -/
def readSettings (invocation : Invocation) : Except Complaint Settings :=
  match invocation.settings with
  | none =>
      .ok .initial
  | some bytes =>
      match bytes.bind String.fromUTF8? with
      | none =>
          .error .unreadableSettings
      | some document =>
          Settings.read document

/-- The script of a call. -/
def readScript (invocation : Invocation) : Except Complaint String :=
  match invocation.script with
  | .input bytes =>
      match String.fromUTF8? bytes with
      | none =>
          .error .unreadableInput
      | some script =>
          .ok script
  | .file bytes =>
      match bytes.bind String.fromUTF8? with
      | none =>
          .error .unreadableScriptFile
      | some script =>
          .ok script

/-- The suggestions of a call. -/
def suggestions
    (invocation : Invocation) : Except Complaint (List Suggestion.Item) := do
  let settings ← invocation.readSettings
  let script ← invocation.readScript
  let request : PassRequest :=
    { text := script
      cursor := cursor script invocation.line invocation.column }
  match (settings.toEngine.complete .initial request).1.outcome with
  | .completed items =>
      return items
  | .superseded =>
      return []

/-- Answer a call. -/
def run (invocation : Invocation) : Reply :=
  match invocation.suggestions with
  | .error complaint =>
      { exitCode := complaint.exitCode
        output := ""
        complaint := some complaint }
  | .ok items =>
      { exitCode := 0
        output :=
          if invocation.json then
            Suggestion.renderJson items
          else
            Suggestion.renderLines items
        complaint := none }

end Invocation

end ScriptCompletion.CommandLine
