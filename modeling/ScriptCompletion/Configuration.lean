import ScriptCompletion.Failure
import ScriptCompletion.Toml.Document

namespace ScriptCompletion

/-!
# Configuration

Every setting has a default, so the empty document is a configuration.  A
timeout of zero is refused.
-/

/-- The settings of the engine. -/
structure Configuration where
  /-- How long a call to a collaborator may take, in milliseconds. -/
  callTimeout : Nat := 3000
  /-- The commands of the standard module that are not evaluated. -/
  excludedCommands : List String := ["load"]
  /-- The largest number of suggestions. -/
  maxSuggestions : Option Nat := none
deriving Repr, DecidableEq

/-- Why a document is no configuration. -/
inductive ConfigurationError where
  /-- The document is malformed, or a setting has the wrong type. -/
  | unreadable
  | zeroTimeout
deriving Repr, DecidableEq

/-- The wording of a configuration error. -/
def ConfigurationError.message : ConfigurationError → String
  | .unreadable =>
      "malformed settings"
  | .zeroTimeout =>
      "external_call_timeout_ms must be greater than zero"

/-- The failure that a configuration error is. -/
def ConfigurationError.toFailure (error : ConfigurationError) : Failure :=
  .configuration error.message

namespace Configuration

/-- Decode the settings. -/
def ofValue? (value : Toml.Value) : Option Configuration := do
  let fields ←
    value.fields?
      ["external_call_timeout_ms", "excluded_commands", "max_suggestions"]
  let standard : Configuration := {}
  let callTimeout ←
    Toml.fieldOr fields "external_call_timeout_ms" Toml.Value.natural?
      standard.callTimeout
  let excludedCommands ←
    Toml.fieldOr fields "excluded_commands"
      (Toml.Value.list? Toml.Value.text?) standard.excludedCommands
  let maxSuggestions ←
    Toml.fieldOr fields "max_suggestions"
      (fun value => value.natural?.map some) standard.maxSuggestions
  return { callTimeout, excludedCommands, maxSuggestions }

/-- Refuse a timeout of zero. -/
def validate
    (configuration : Configuration) : Except ConfigurationError Configuration :=
  if configuration.callTimeout = 0 then
    .error .zeroTimeout
  else
    .ok configuration

/-- Read the settings from a document. -/
def read (document : String) : Except ConfigurationError Configuration :=
  match (Toml.read? document).bind ofValue? with
  | none =>
      .error .unreadable
  | some configuration =>
      configuration.validate

end Configuration

end ScriptCompletion
