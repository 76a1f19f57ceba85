import ScriptCompletion.Collaborators
import ScriptCompletion.Resolution

namespace ScriptCompletion

/-!
# The walk to the cursor

To know what is in scope at the cursor, the commands that start on a line above
it are visited in source order, and what their evaluators bind is put into the
scopes.  A command with a block opens a scope.  The walk ends at the first
command that is not above the cursor line, or at the end of a block that the
cursor is still inside of, and leaves the scopes open that are open there.
-/

/-- What is needed to evaluate commands. -/
structure Evaluator where
  collaborators : Collaborators
  timeout : Nat
  /-- The commands of the standard module that are not evaluated. -/
  excluded : List String

/-- What became of a visited command.  A key is that of the module that the
command belongs to. -/
inductive Outcome where
  | excluded
  | unresolved (error : ResolutionError)
  /-- The command has no evaluator. -/
  | idle (key : String)
  | evaluated (key : String) (bindings : List Binding)
  | failed (key : String) (error : EvaluationError)

namespace Outcome

/-- The key of the module whose commands come first in the command's block. -/
def key? : Outcome → Option String
  | .excluded | .unresolved _ =>
      none
  | .idle key | .evaluated key _ | .failed key _ =>
      some key

/-- What the command binds. -/
def bindings : Outcome → List Binding
  | .evaluated _ bindings =>
      bindings
  | .excluded | .unresolved _ | .idle _ | .failed _ _ =>
      []

/-- Whether the evaluator ran to its end. -/
def isEvaluated : Outcome → Bool
  | .evaluated _ _ =>
      true
  | _ =>
      false

/-- Whether there was nothing to evaluate. -/
def isSkipped : Outcome → Bool
  | .excluded | .unresolved _ | .idle _ =>
      true
  | .evaluated _ _ | .failed _ _ =>
      false

/-- What went wrong. -/
def failure? : Outcome → Option Failure
  | .unresolved error =>
      some (.resolution error)
  | .failed _ error =>
      some (.evaluation error)
  | .excluded | .idle _ | .evaluated _ _ =>
      none

end Outcome

/-- A visited command, what became of it, what was asked for it at which moments
of the visit, and how long it took. -/
structure Visit where
  command : Script.Command
  outcome : Outcome
  calls : List TimedCall
  duration : Nat

/-- What goes into a report when the visit failed. -/
def Visit.failure? (visit : Visit) : Option CommandFailure :=
  visit.outcome.failure?.map fun failure =>
    { command := visit.command.qualifiedName
      line := visit.command.startLine
      failure := failure }

/-- An evaluation that has been carried out: what was asked at which moments, and
the answer. -/
structure Conclusion where
  calls : List TimedCall
  answer : Timed (Except EvaluationError (List Binding))

/-- What is concluded from the answer to a call that was made at a moment and
took some time. -/
def Conclusion.behind
    (rest : Conclusion)
    (moment : Nat)
    (call : Call)
    (delay : Nat) : Conclusion where
  calls :=
    ⟨moment, call⟩ ::
      rest.calls.map fun timed => timed.later (moment + delay)
  answer := ⟨moment + delay + rest.answer.delay, rest.answer.content⟩

namespace Evaluator

/-- Carry out an evaluation. -/
def conclude
    (evaluator : Evaluator) : Evaluation → Conclusion
  | .finished delay result =>
      { calls := []
        answer := ⟨delay, result⟩ }
  | .resolving moment name next =>
      let resolved := evaluator.collaborators.resolveName name
      (evaluator.conclude (next resolved.content)).behind moment
        (.resolveName name) resolved.delay
  | .fetching moment address next =>
      let fetched := evaluator.collaborators.fetch address
      (evaluator.conclude (next fetched.content)).behind moment
        (.fetch address) fetched.delay

/-- Evaluate a command within the timeout; behind it nothing is asked. -/
def evaluate
    (evaluator : Evaluator)
    (scopes : Scopes)
    (command : Script.Command)
    (evaluation : EvaluationRequest → Evaluation) : Conclusion :=
  let conclusion :=
    evaluator.conclude
      (evaluation
        { command := command
          scopes := scopes.view })
  { calls :=
      conclusion.calls.filter fun timed => timed.moment ≤ evaluator.timeout
    answer :=
      conclusion.answer.within evaluator.timeout
        (.error
          (.external (.timeout command.qualifiedName evaluator.timeout))) }

/-- Visit one command. -/
def visit
    (evaluator : Evaluator)
    (scopes : Scopes)
    (command : Script.Command) : Visit :=
  if evaluator.excluded.any command.isStandard then
    ⟨command, .excluded, [], 0⟩
  else
    match scopes.resolve command.qualifier command.name with
    | .error error =>
        ⟨command, .unresolved error, [], 0⟩
    | .ok resolved =>
        match resolved.command.evaluator with
        | none =>
            ⟨command, .idle resolved.key, [], 0⟩
        | some evaluation =>
            let conclusion := evaluator.evaluate scopes command evaluation
            let outcome :=
              match conclusion.answer.content with
              | .ok bindings =>
                  .evaluated resolved.key bindings
              | .error error =>
                  .failed resolved.key error
            ⟨command, outcome, conclusion.calls, conclusion.answer.delay⟩

end Evaluator

/-- How far a walk has come.  Visits are latest first. -/
structure Walk where
  scopes : Scopes
  visits : List Visit
  /-- Whether the walk has reached the cursor. -/
  arrived : Bool

/-- Whether a command starts on a line above the cursor. -/
def isAbove
    (command : Script.Command)
    (cursor : Position) : Bool :=
  match command.startLine with
  | none =>
      false
  | some line =>
      line < cursor.line

/-- Whether the cursor is still inside a block behind the last command of it. -/
def Script.Block.encloses
    (block : Script.Block Script.Command)
    (cursor : Position) : Bool :=
  !block.closed ||
    match block.range with
    | none =>
        true
    | some range =>
        cursor < range.stop

namespace Walk

/-- A walk that has not begun. -/
def start (scopes : Scopes) : Walk where
  scopes := scopes
  visits := []
  arrived := false

/-- Visit a command that has no block. -/
def pass
    (walk : Walk)
    (visit : Visit) : Walk :=
  { walk with
    scopes := walk.scopes.bindAll visit.outcome.bindings
    visits := visit :: walk.visits }

/-- Visit a command that has a block, and enter the block. -/
def enter
    (walk : Walk)
    (visit : Visit) : Walk :=
  { walk with
    scopes :=
      (walk.scopes.enter visit.outcome.key?).bindAll visit.outcome.bindings
    visits := visit :: walk.visits }

/-- Arrive at the cursor. -/
def arrive (walk : Walk) : Walk :=
  { walk with arrived := true }

/-- Leave the scope of a block. -/
def leave (walk : Walk) : Walk :=
  match walk.scopes.exit with
  | .ok scopes =>
      { walk with scopes := scopes }
  | .error _ =>
      walk.arrive

mutual

/-- Visit a command and the commands of its block. -/
def throughCommand
    (evaluator : Evaluator)
    (cursor : Position)
    (walk : Walk)
    (command : Script.Command) : Walk :=
  if isAbove command cursor then
    let visit := evaluator.visit walk.scopes command
    match command with
    | ⟨_, _, _, _, _, none⟩ =>
        walk.pass visit
    | ⟨_, _, _, _, _, some ⟨commands, range, closed⟩⟩ =>
        let inside := throughAll evaluator cursor (walk.enter visit) commands
        if inside.arrived then
          inside
        else if Script.Block.encloses ⟨commands, range, closed⟩ cursor then
          inside.arrive
        else
          inside.leave
  else
    walk.arrive

/-- Visit commands one after another, until the cursor is reached. -/
def throughAll
    (evaluator : Evaluator)
    (cursor : Position)
    (walk : Walk)
    (commands : List Script.Command) : Walk :=
  match commands with
  | [] =>
      walk
  | command :: rest =>
      let next := throughCommand evaluator cursor walk command
      if next.arrived then
        next
      else
        throughAll evaluator cursor next rest

end

end Walk

/-- What the walk to the cursor met. -/
structure WalkReport where
  /-- The number of commands whose evaluator ran to its end. -/
  evaluated : Nat
  /-- The number of commands with nothing to evaluate. -/
  skipped : Nat
  failures : List CommandFailure
deriving Repr, DecidableEq

/-- Where the walk to the cursor ended, and the visits in source order. -/
structure Journey where
  scopes : Scopes
  visits : List Visit

namespace Journey

/-- The summary of the visits. -/
def report (journey : Journey) : WalkReport where
  evaluated := journey.visits.countP fun visit => visit.outcome.isEvaluated
  skipped := journey.visits.countP fun visit => visit.outcome.isSkipped
  failures := journey.visits.filterMap Visit.failure?

/-- How long all visits took, one after another. -/
def duration (journey : Journey) : Nat :=
  journey.visits.foldl (fun total visit => total + visit.duration) 0

/-- What was asked during visits of which the first begins at a moment. -/
def callsFrom (moment : Nat) : List Visit → List TimedCall
  | [] =>
      []
  | visit :: rest =>
      visit.calls.map (fun timed => timed.later moment) ++
        callsFrom (moment + visit.duration) rest

/-- What was asked, each question at its moment. -/
def calls (journey : Journey) : List TimedCall :=
  callsFrom 0 journey.visits

end Journey

/-- Walk through the commands of a script up to the cursor. -/
def Evaluator.walk
    (evaluator : Evaluator)
    (commands : List Script.Command)
    (cursor : Position)
    (scopes : Scopes) : Journey :=
  let walk := Walk.throughAll evaluator cursor (.start scopes) commands
  { scopes := walk.scopes
    visits := walk.visits.reverse }

end ScriptCompletion
