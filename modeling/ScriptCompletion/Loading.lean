import ScriptCompletion.Registry.Basic
import ScriptCompletion.Scopes

namespace ScriptCompletion

/-!
# Loading of modules

Every `load` command of a script is a request.  A request is rejected if its
module is loaded already or its key is taken, which depends on the requests
before it alone.  The modules of the other requests are looked up all at once,
so the loading takes as long as its slowest look-up.
-/

/-- A module that a script asks for. -/
structure LoadRequest where
  name : String
  aliasName : Option String
  line : Option Nat
deriving Repr, DecidableEq

/-- What a session remembers of a request. -/
structure ModuleLoad where
  name : String
  aliasName : Option String
deriving Repr, DecidableEq

/-- The loads of a script, in source order. -/
abbrev Signature :=
  List ModuleLoad

namespace LoadRequest

/-- The key under which the module is bound: its alias, or else its name. -/
def key (request : LoadRequest) : String :=
  request.aliasName.getD request.name

/-- The request as a command. -/
def label (request : LoadRequest) : String :=
  match request.aliasName with
  | none =>
      "load " ++ request.name
  | some aliasName =>
      "load " ++ request.name ++ " as " ++ aliasName

/-- The alias that a list of arguments gives behind the word `as`. -/
def aliasOf : List Script.Argument → Option String
  | _ :: keyword :: aliasName :: _ =>
      if keyword.raw = "as" then
        some aliasName.value
      else
        none
  | _ =>
      none

/-- The request that a command makes, if it names a module. -/
def ofCommand? (command : Script.Command) : Option LoadRequest :=
  if command.isStandard "load" then
    command.arguments.head?.map fun argument =>
      { name := argument.value
        aliasName := aliasOf command.arguments
        line := command.startLine }
  else
    none

/-- The requests of a script, in source order. -/
def collect (commands : List Script.Command) : List LoadRequest :=
  (Script.flatten commands).filterMap ofCommand?

/-- The part of a request that a session remembers. -/
def toLoad (request : LoadRequest) : ModuleLoad :=
  ⟨request.name, request.aliasName⟩

/-- The signature of a list of requests. -/
def signature (requests : List LoadRequest) : Signature :=
  requests.map toLoad

/-- Whether the request starts on a line before the given one. -/
def isBefore
    (request : LoadRequest)
    (line : Nat) : Bool :=
  match request.line with
  | none =>
      false
  | some start =>
      start < line

/-- What goes into a report when the request fails. -/
def failed
    (request : LoadRequest)
    (error : LoadError) : CommandFailure where
  command := request.label
  line := request.line
  failure := .load error

end LoadRequest

/-- Which names are loaded and which keys are taken, and how the requests so far
were judged; both lists of requests are latest first. -/
structure Admission where
  names : List String
  keys : List String
  accepted : List LoadRequest
  rejected : List CommandFailure
deriving Repr, DecidableEq

namespace Admission

/-- Before the first request only the standard module is loaded. -/
def initial : Admission where
  names := [Script.standardName]
  keys := [Script.standardName]
  accepted := []
  rejected := []

/-- Why a request cannot be accepted. -/
def objection
    (admission : Admission)
    (request : LoadRequest) : Option LoadError :=
  if admission.names.contains request.name then
    some (.alreadyLoaded request.name)
  else if admission.keys.contains request.key then
    some (.aliasInUse request.key)
  else
    none

/-- Judge one request. -/
def judge
    (admission : Admission)
    (request : LoadRequest) : Admission :=
  match admission.objection request with
  | some error =>
      { admission with
        rejected := request.failed error :: admission.rejected }
  | none =>
      { admission with
        names := request.name :: admission.names
        keys := request.key :: admission.keys
        accepted := request :: admission.accepted }

/-- Judge requests in order. -/
def ofRequests (requests : List LoadRequest) : Admission :=
  requests.foldl judge initial

end Admission

/-- A request that gave a module. -/
structure LoadedModule where
  request : LoadRequest
  module : Module

/-- What became of the requests of a script. -/
structure Loading where
  /-- The modules that were loaded, in source order. -/
  modules : List LoadedModule
  /-- The rejected requests and then the failed look-ups, in source order. -/
  failures : List CommandFailure
  /-- The number of look-ups. -/
  lookups : Nat
  calls : List Call
  duration : Nat

/-- What is needed to load modules. -/
structure Loader where
  registry : Directory
  collaborators : Collaborators
  timeout : Nat

namespace Loader

/-- Look a module up within the timeout. -/
def lookup
    (loader : Loader)
    (name : String) : Lookup :=
  let lookup := loader.registry.lookup loader.collaborators name
  { lookup with
    answer :=
      lookup.answer.within loader.timeout
        (.error
          (.external (.timeout s!"loading module {name}" loader.timeout))) }

/-- The module of an accepted request: the cached one, or the one looked up. -/
def supply
    (loader : Loader)
    (cached : List (String × Module))
    (request : LoadRequest) : Except LoadError Module :=
  match cached.lookup request.name with
  | some module =>
      .ok module
  | none =>
      (loader.lookup request.name).answer.content

/-- The module of an accepted request, if there is one. -/
def loaded?
    (loader : Loader)
    (cached : List (String × Module))
    (request : LoadRequest) : Option LoadedModule :=
  match loader.supply cached request with
  | .ok module =>
      some ⟨request, module⟩
  | .error _ =>
      none

/-- What goes into a report if an accepted request gives no module. -/
def failure?
    (loader : Loader)
    (cached : List (String × Module))
    (request : LoadRequest) : Option CommandFailure :=
  match loader.supply cached request with
  | .ok _ =>
      none
  | .error error =>
      some (request.failed error)

/-- Load the modules of the requests, taking those that are cached. -/
def load
    (loader : Loader)
    (cached : List (String × Module))
    (requests : List LoadRequest) : Loading :=
  let admission := Admission.ofRequests requests
  let accepted := admission.accepted.reverse
  let lookups :=
    (accepted.filter fun request =>
      (cached.lookup request.name).isNone).map fun request =>
        loader.lookup request.name
  { modules := accepted.filterMap (loader.loaded? cached)
    failures :=
      admission.rejected.reverse ++
        accepted.filterMap (loader.failure? cached)
    lookups := lookups.length
    calls := lookups.filterMap Lookup.call
    duration :=
      (lookups.map fun lookup => lookup.answer.delay).foldl max 0 }

end Loader

namespace LoadedModule

/-- The module under its key, and its alias if it has one. -/
def bindings (loaded : LoadedModule) : List Binding :=
  let module := Binding.ofModule loaded.request.key loaded.module
  match loaded.request.aliasName with
  | none =>
      [module]
  | some aliasName =>
      [module, .ofAlias aliasName loaded.request.name]

end LoadedModule

namespace Loading

/-- The scopes that a list of loaded modules makes. -/
def scopesOf (modules : List LoadedModule) : Scopes :=
  Scopes.root.bindAll (modules.flatMap LoadedModule.bindings)

/-- The bindings of everything that was loaded. -/
def scopes (loading : Loading) : Scopes :=
  scopesOf loading.modules

/-- The bindings of what was loaded on lines before the given one. -/
def scopesBefore
    (loading : Loading)
    (line : Nat) : Scopes :=
  scopesOf (loading.modules.filter fun loaded => loaded.request.isBefore line)

end Loading

end ScriptCompletion
