import ScriptCompletion.Module.Argument
import ScriptCompletion.Module.Descriptor

namespace ScriptCompletion

/-!
# The standard module

It is always in scope.  Loading is done before any command is evaluated, so
`load` is here for its name and its candidates alone; `set` is the command that
binds a variable.
-/

namespace Standard

/-- The candidates of `load`: a module, then the word before an alias. -/
def loadCandidates
    (loadable : List String)
    (query : CandidateQuery) : List String :=
  match query.index with
  | 0 =>
      loadable
  | 1 =>
      ["as"]
  | _ =>
      []

/-- The candidates of `exec`: a variable as the first argument. -/
def execCandidates (query : CandidateQuery) : List String :=
  match query.index with
  | 0 =>
      query.variableNames
  | _ =>
      []

/-- What `set` binds: its first argument to the text of its second. -/
def setBindings
    (request : EvaluationRequest) : Except EvaluationError (List Binding) :=
  match request.command.arguments with
  | [] =>
      .error (.missingArgument "set" "variable")
  | target :: rest =>
      if isVariableName target.raw then
        match rest with
        | [] =>
            .error (.missingArgument "set" "value")
        | value :: _ =>
            .ok [.ofVariable target.raw (value.resolve request.variableText?)]
      else
        .error
          (.invalidArgument "set" target.raw
            "expected a variable name such as $name")

/-- The helpers of the standard module. -/
def helpers : List HelperEntry :=
  [⟨"date", "Timestamp for a date, with optional offset"⟩,
    ⟨"get", "Read a value from a contract"⟩,
    ⟨"id", "keccak256 of a string"⟩,
    ⟨"ipfs", "Upload text and return its CID"⟩,
    ⟨"me", "Connected account address"⟩,
    ⟨"token", "Token address from a token list symbol"⟩,
    ⟨"token.balance", "Token balance of an account"⟩,
    ⟨"token.amount", "Amount scaled by token decimals"⟩]

/-- The commands of the standard module. -/
def commands (loadable : List String) : List CommandEntry :=
  [.suggesting "load" "Load a module, optionally under an alias"
      (loadCandidates loadable),
    .evaluated "set" "Bind a value to a $variable"
      fun request => .finished 0 (setBindings request),
    .suggesting "exec" "Call a contract function" execCandidates]

end Standard

/-- The standard module, which offers the given names to `load`. -/
def standardModule (loadable : List String) : Module where
  identity := 0
  name := Script.standardName
  commands := Standard.commands loadable
  helpers := Standard.helpers

end ScriptCompletion
