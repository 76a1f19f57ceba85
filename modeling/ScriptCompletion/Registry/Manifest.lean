import ScriptCompletion.Module.Descriptor
import ScriptCompletion.Toml.Document

namespace ScriptCompletion

/-!
# Manifests

A manifest is a TOML document that lists the commands and helpers of a module.
Commands of a manifest have neither evaluators nor candidates.
-/

/-- What a manifest says of a command or a helper. -/
structure ManifestEntry where
  name : String
  description : String
deriving Repr, DecidableEq

/-- The commands and helpers of a module. -/
structure Manifest where
  commands : List ManifestEntry
  helpers : List ManifestEntry
deriving Repr, DecidableEq

/-- Decode an entry, whose description may be left out. -/
def ManifestEntry.ofValue? (value : Toml.Value) : Option ManifestEntry := do
  let fields ← value.fields? ["name", "description"]
  let name ← (← fields "name").text?
  let description ← Toml.fieldOr fields "description" Toml.Value.text? ""
  return ⟨name, description⟩

namespace Manifest

/-- Decode a manifest, either list of which may be left out. -/
def ofValue? (value : Toml.Value) : Option Manifest := do
  let fields ← value.fields? ["commands", "helpers"]
  let entries := Toml.Value.list? ManifestEntry.ofValue?
  let commands ← Toml.fieldOr fields "commands" entries []
  let helpers ← Toml.fieldOr fields "helpers" entries []
  return ⟨commands, helpers⟩

/-- Read a manifest. -/
def read? (document : String) : Option Manifest := do
  ofValue? (← Toml.read? document)

/-- The module that a manifest describes, under the given name. -/
def toModule
    (manifest : Manifest)
    (name : String) : Module :=
  let withCommands :=
    manifest.commands.foldl
      (fun (module : Module) entry =>
        module.withCommand (.plain entry.name entry.description))
      (.named name)
  manifest.helpers.foldl
    (fun (module : Module) entry =>
      module.withHelper ⟨entry.name, entry.description⟩)
    withCommands

end Manifest

end ScriptCompletion
