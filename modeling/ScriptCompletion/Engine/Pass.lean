import ScriptCompletion.Configuration
import ScriptCompletion.Module.Standard
import ScriptCompletion.Script.Parser
import ScriptCompletion.Session
import ScriptCompletion.Suggestion.Item
import ScriptCompletion.Suggestion.Word
import ScriptCompletion.Text.Lines
import ScriptCompletion.Walk

namespace ScriptCompletion

/-!
# Completion passes

A pass reads the script, loads its modules, walks to the cursor and lists what
fits there.  It looks at the session once, when it begins, and writes to it
once, when it ends; in between it depends on nothing else.  So a pass has a
draft, which is a function of its input and of the modules that were cached when
it began.
-/

/-- What completes scripts. -/
structure Engine where
  registry : Directory
  collaborators : Collaborators
  configuration : Configuration

/-- What a pass met besides its suggestions. -/
structure PassReport where
  problems : List Script.Problem
  /-- The failed loads on lines above the cursor. -/
  loadFailures : List CommandFailure
  /-- The number of modules that were looked up. -/
  lookups : Nat
  walk : WalkReport
deriving Repr, DecidableEq

/-- The result of a pass before it is known whether the pass is still wanted. -/
structure Draft where
  signature : Signature
  /-- The modules that were loaded, wherever the cursor is. -/
  environment : Scopes
  items : List Suggestion.Item
  report : PassReport
  /-- What was asked, each question at a moment after the beginning. -/
  calls : List TimedCall
  duration : Nat

/-- Whether a failure belongs to a line above the given one. -/
def CommandFailure.isAbove
    (failure : CommandFailure)
    (line : Nat) : Bool :=
  match failure.line with
  | none =>
      false
  | some start =>
      start < line

namespace Engine

/-- The engine of the modules that are always at hand, without names and
documents and with the default settings. -/
def standalone : Engine where
  registry := Registry.builtin.directory
  collaborators := .offline [] []
  configuration := {}

/-- The scopes before anything is loaded: the standard module alone. -/
def initialScopes (engine : Engine) : Scopes :=
  Scopes.root.bind
    (.ofModule Script.standardName (standardModule engine.registry.names))

/-- What loads the modules of a script. -/
def loader (engine : Engine) : Loader where
  registry := engine.registry
  collaborators := engine.collaborators
  timeout := engine.configuration.callTimeout

/-- What evaluates the commands of a script. -/
def evaluator (engine : Engine) : Evaluator where
  collaborators := engine.collaborators
  timeout := engine.configuration.callTimeout
  excluded := engine.configuration.excludedCommands

/-- Cut a list of suggestions to the largest number. -/
def limit
    (engine : Engine)
    (items : List Suggestion.Item) : List Suggestion.Item :=
  match engine.configuration.maxSuggestions with
  | none =>
      items
  | some number =>
      items.take number

/-- The walk to the cursor in the scopes of what is loaded above it. -/
def journey
    (engine : Engine)
    (loading : Loading)
    (commands : List Script.Command)
    (cursor : Position) : Journey :=
  engine.evaluator.walk commands cursor
    (engine.initialScopes.merge (loading.scopesBefore cursor.line))

/-- The draft of a pass over a text that has been read. -/
def draftOf
    (engine : Engine)
    (cached : List (String × Module))
    (parsing : Script.Parsing)
    (line : String)
    (cursor : Position) : Draft :=
  let commands := parsing.commands
  let requests := LoadRequest.collect commands
  let loading := engine.loader.load cached requests
  let journey := engine.journey loading commands cursor
  { signature := LoadRequest.signature requests
    environment := loading.scopes
    items :=
      engine.limit
        (Suggestion.assemble
          (Suggestion.classify commands line cursor)
          journey.scopes
          (Suggestion.wordSpan line cursor))
    report :=
      { problems := parsing.problems
        loadFailures :=
          loading.failures.filter fun failure => failure.isAbove cursor.line
        lookups := loading.lookups
        walk := journey.report }
    calls :=
      loading.calls.map (fun call => ⟨0, call⟩) ++
        journey.calls.map fun timed => timed.later loading.duration
    duration := loading.duration + journey.duration }

/-- The draft of a pass that begins in a session. -/
def draft
    (engine : Engine)
    (session : Session)
    (text : String)
    (cursor : Position) : Draft :=
  let parsing := Script.parse text
  let signature :=
    LoadRequest.signature (LoadRequest.collect parsing.commands)
  engine.draftOf (session.cached signature) parsing
    (Text.lineAt text cursor.line) cursor

end Engine

/-- What a pass ends with. -/
inductive PassOutcome where
  | completed (items : List Suggestion.Item)
  /-- Another pass began in the meantime. -/
  | superseded
deriving Repr, DecidableEq

/-- The outcome of a pass and what it met. -/
structure PassResult where
  outcome : PassOutcome
  report : PassReport
deriving Repr, DecidableEq

/-- End a pass: write its modules to the session, if it is still wanted. -/
def Draft.conclude
    (draft : Draft)
    (session : Session)
    (ticket : Ticket) : PassResult × Session :=
  match session.commit ticket draft.signature draft.environment with
  | none =>
      (⟨.superseded, draft.report⟩, session)
  | some session =>
      (⟨.completed draft.items, draft.report⟩, session)

end ScriptCompletion
