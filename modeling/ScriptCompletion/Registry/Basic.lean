import ScriptCompletion.Collaborators
import ScriptCompletion.Module.Aragon
import ScriptCompletion.Registry.Manifest
import ScriptCompletion.Text.Whitespace

namespace ScriptCompletion

/-!
# The registry

A registry knows the modules that can be loaded.  To what uses it, it is a
directory: it offers names, and each name can be looked up.  In the registry that
is kept here, a module is either at hand or described by a manifest, which is
fetched anew each time it is looked up.
-/

/-- Where a module comes from. -/
inductive ModuleSource where
  | atHand (module : Module)
  | remote (address : String)

/-- The modules that can be loaded, in the order of their registration. -/
structure Registry where
  entries : List (String × ModuleSource)

/-- What a look-up asks and gives. -/
structure Lookup where
  call : Option Call
  answer : Timed (Except LoadError Module)

/-- A registry of any kind, as far as others need to know it.  What a look-up
asks, which is one question at most, and what it gives depend on the name and the
collaborators alone. -/
structure Directory where
  /-- The names that can be loaded. -/
  names : List String
  lookup : Collaborators → String → Lookup

namespace Registry

/-- A registry without modules. -/
def empty : Registry where
  entries := []

/-- Register a source; one of the same name is replaced where it stands. -/
def add
    (registry : Registry)
    (name : String)
    (source : ModuleSource) : Registry where
  entries := Keyed.put Prod.fst (name, source) registry.entries

/-- Register a module that is at hand, under its own name. -/
def register
    (registry : Registry)
    (module : Module) : Registry :=
  registry.add module.name (.atHand module)

/-- Register the manifest at an address. -/
def registerRemote
    (registry : Registry)
    (name : String)
    (address : String) : Registry :=
  registry.add name (.remote address)

/-- The registry of the modules that are always at hand. -/
def builtin : Registry :=
  empty.register aragonModule

/-- The names that can be loaded. -/
def names (registry : Registry) : List String :=
  registry.entries.map Prod.fst

/-- Whether a name can be loaded. -/
def contains
    (registry : Registry)
    (name : String) : Bool :=
  registry.names.contains name

/-- The module that the document at an address describes. -/
def readRemote
    (name : String)
    (address : String)
    (document : String) : Except LoadError Module :=
  if Text.isBlank document then
    .error (.external (.content s!"empty content at {address}"))
  else
    match Manifest.read? document with
    | none =>
        .error (.invalidContent name "malformed manifest")
    | some manifest =>
        .ok (manifest.toModule name)

/-- Look a module up. -/
def lookup
    (registry : Registry)
    (collaborators : Collaborators)
    (name : String) : Lookup :=
  match registry.entries.lookup name with
  | none =>
      { call := none
        answer := ⟨0, .error (.notFound name)⟩ }
  | some (.atHand module) =>
      { call := none
        answer := ⟨0, .ok module⟩ }
  | some (.remote address) =>
      let fetched := collaborators.fetch address
      { call := some (.fetch address)
        answer :=
          { delay := fetched.delay
            content :=
              match fetched.content with
              | .error error =>
                  .error (.external error)
              | .ok document =>
                  readRemote name address document } }

/-- The registry as others know it. -/
def directory (registry : Registry) : Directory where
  names := registry.names
  lookup := registry.lookup

end Registry

end ScriptCompletion
