import ScriptCompletion.Module.Argument
import ScriptCompletion.Module.Descriptor

namespace ScriptCompletion

/-!
# The organisation module

`connect` opens a block that acts on an organisation.  Its evaluator turns the
organisation's name into an address and binds that to `$dao` inside the block.
-/

namespace Aragon

/-- The name under which the module is loaded. -/
def name : String :=
  "aragonos"

/-- What is put behind an organisation's name before its address is asked for. -/
def nameSuffix : String :=
  ".aragonid.eth"

/-- The apps that can be installed. -/
def knownRepositories : List String :=
  ["acl", "agent", "finance", "kernel", "token-manager", "vault", "voting"]

/-- The roles that can be granted. -/
def knownRoles : List String :=
  ["BURN_ROLE", "CREATE_PAYMENTS_ROLE", "CREATE_PERMISSIONS_ROLE",
    "CREATE_VOTES_ROLE", "EXECUTE_ROLE", "MANAGE_APPS_ROLE", "MINT_ROLE",
    "MODIFY_QUORUM_ROLE", "MODIFY_SUPPORT_ROLE", "TRANSFER_ROLE"]

/-- The entity that stands for everyone. -/
def anyEntity : String :=
  "ANY_ENTITY"

/-- The candidates of `install`: an app as the first argument. -/
def installCandidates (query : CandidateQuery) : List String :=
  match query.index with
  | 0 =>
      knownRepositories
  | _ =>
      []

/-- The candidates of `grant` and `revoke`: two entities, then a role. -/
def permissionCandidates (query : CandidateQuery) : List String :=
  match query.index with
  | 0 | 1 =>
      query.variableNames ++ [anyEntity]
  | 2 =>
      knownRoles
  | _ =>
      []

/-- The bindings of a block that acts on the organisation at an address. -/
def connected (address : String) : List Binding :=
  [.ofVariable "$dao" address]

/-- What `connect` does: it takes an address as it is and asks for that of a
name. -/
def connect (request : EvaluationRequest) : Evaluation :=
  match request.command.arguments with
  | [] =>
      .finished 0 (.error (.missingArgument "connect" "dao"))
  | argument :: _ =>
      let organisation := argument.resolve request.variableText?
      if isAddress organisation then
        .finished 0 (.ok (connected organisation))
      else
        let fullName := organisation ++ nameSuffix
        .resolving 0 fullName fun
          | .ok (some address) =>
              .finished 0 (.ok (connected address))
          | .ok none =>
              .finished 0
                (.error
                  (.unresolved "connect"
                    s!"{fullName} does not resolve to an address"))
          | .error error =>
              .finished 0 (.error (.external error))

/-- The commands of the module. -/
def commands : List CommandEntry :=
  [.evaluated "connect" "Open a block acting on a DAO" connect,
    .suggesting "install" "Install a new app instance" installCandidates,
    .suggesting "grant" "Grant a permission" permissionCandidates,
    .suggesting "revoke" "Revoke a permission" permissionCandidates,
    .plain "new-dao" "Create a new DAO",
    .plain "new-token" "Create a new token"]

/-- The helpers of the module. -/
def helpers : List HelperEntry :=
  [⟨"aragonEns", "Resolve an aragon ENS name"⟩]

end Aragon

/-- The organisation module. -/
def aragonModule : Module where
  identity := 0
  name := Aragon.name
  commands := Aragon.commands
  helpers := Aragon.helpers

end ScriptCompletion
