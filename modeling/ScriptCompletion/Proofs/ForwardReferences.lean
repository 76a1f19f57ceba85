import ScriptCompletion.Proofs.CacheTransparency
import ScriptCompletion.Proofs.EarlyLines
import ScriptCompletion.Proofs.HeadingEvaluation
import ScriptCompletion.Proofs.LoadsAbove

namespace ScriptCompletion

open Script (Event)

/-!
# Commands do not refer forward

What becomes of a command is settled by what stands before it in the outline and
by the scopes that the walk starts in.  These hold what the script loads above
the cursor, and a load is bound before the first command is visited.  So a
command does not depend on the commands behind it, except on loads: one that
stands between the command and the cursor is already in scope.  Two conditions
are needed.  Evaluators read headings, so that a command does not depend on the
commands in its own block.  And modules have the names that they are asked for
by, so that a session keeps what the look-ups give.
-/

/-- The walk visits a command above the cursor after everything before it, and
with the outcome that this leads to. -/
theorem Evaluator.visit_of_beginning
    (evaluator : Evaluator)
    {scopes : Scopes}
    (readsHeadings : AllModules Module.ReadsHeadings scopes.bindings)
    {commands : List Script.Command}
    (sorted : (Script.outline commands).Pairwise Event.Precedes)
    {before : List Event}
    {command : Script.Command}
    (begins : before ++ [.visit command] <+: Script.outline commands)
    {cursor : Position}
    (above : isAbove command cursor = true) :
    ∃ visit,
      (evaluator.walk commands cursor scopes).visits[
          (Script.headings before).length]? = some visit ∧
        visit.command.heading = command ∧
        visit.outcome =
          (evaluator.visit
            (before.foldl (Walk.follow evaluator cursor) (.start scopes)).scopes
            command).outcome := by
  obtain ⟨later, shape⟩ := begins
  rw [List.append_assoc, List.singleton_append] at shape
  have nested : Script.Nested (Walk.start scopes).scopes.depth before := by
    have nestedAll := Script.nested_outline commands
    rw [← shape] at nestedAll
    exact nestedAll.of_append.mono (Nat.zero_le _)
  have passed :
      ∀ event ∈ before, event.isPassed cursor = true := by
    rw [← shape, List.pairwise_append] at sorted
    intro event member
    have precedes := sorted.2.2 event member (.visit command) (by simp)
    exact Event.isPassed_of_precedes precedes above
  have going : (Walk.start scopes).arrived = false := rfl
  obtain ⟨counted, added, visited⟩ :=
    Walk.visits_of_beginning going nested passed above later
  have sameJourney := evaluator.walk_eq_outline readsHeadings commands cursor
  rw [← shape] at sameJourney
  have sameVisits := congrArg Journey.visits sameJourney
  simp only [Journey.heading] at sameVisits
  have found :
      ((evaluator.walk commands cursor scopes).visits.map Visit.heading)[
          (Script.headings before).length]? =
        some
          (evaluator.visit
            (before.foldl (Walk.follow evaluator cursor) (.start scopes)).scopes
            command) := by
    rw [sameVisits, visited]
    have counts :
        (before.foldl (Walk.follow evaluator cursor)
            (.start scopes)).visits.reverse.length =
          (Script.headings before).length := by
      rw [List.length_reverse, counted]
      simp [Walk.start]
    rw [← counts]
    simp
  rw [List.getElem?_map, Option.map_eq_some_iff] at found
  obtain ⟨visit, isVisit, sameVisit⟩ := found
  refine ⟨visit, isVisit, ?_, ?_⟩
  · have sameCommand := congrArg Visit.command sameVisit
    rwa [Evaluator.command_visit] at sameCommand
  · have sameOutcome := congrArg Visit.outcome sameVisit
    rwa [Visit.outcome_heading] at sameOutcome

/-- The sessions that passes of the engine and invalidations can lead to. -/
def Engine.Reaches
    (engine : Engine)
    (session : Session) : Prop :=
  ∃ requests steps final,
    Interleaving.run? (engine.plan requests) (.initial .initial) steps =
        some final ∧
      final.session = session

/-- Nothing has to happen for a new session. -/
theorem Engine.reaches_initial (engine : Engine) :
    engine.Reaches .initial :=
  ⟨fun _ => ⟨"", ⟨0, 0⟩⟩, [], .initial .initial, rfl, rfl⟩

/-- A reachable session keeps what the look-ups give. -/
theorem Engine.Reaches.backed
    {engine : Engine}
    (namesModules : engine.registry.NamesModules)
    {session : Session}
    (reached : engine.Reaches session) :
    session.Backed engine.loader := by
  obtain ⟨passes, steps, final, accepted, rfl⟩ := reached
  exact (Interleaving.Transparent.run? namesModules accepted).backed

/-- The requests of a script that start above a line. -/
def LoadRequest.above
    (commands : List Script.Command)
    (line : Nat) : List LoadRequest :=
  (collect commands).filter fun request => request.isBefore line

namespace Engine

/-- What a pass that begins in a session loads. -/
def loading
    (engine : Engine)
    (session : Session)
    (text : String) : Loading :=
  let requests := LoadRequest.collect (Script.parse text).commands
  engine.loader.load (session.cached (LoadRequest.signature requests)) requests

/-- The visits of a pass that begins in a session, in source order. -/
def visits
    (engine : Engine)
    (session : Session)
    (text : String)
    (cursor : Position) : List Visit :=
  (engine.journey (engine.loading session text) (Script.parse text).commands
    cursor).visits

/-- The visits of a pass are what it reports. -/
theorem walk_draft
    (engine : Engine)
    (session : Session)
    (text : String)
    (cursor : Position) :
    (engine.draft session text cursor).report.walk =
      Journey.report ⟨.root, engine.visits session text cursor⟩ :=
  rfl

/-- On a reachable session the walk starts in the scopes of the loads above the
cursor, as on a new one. -/
theorem scopesBefore_of_reaches
    {engine : Engine}
    (namesModules : engine.registry.NamesModules)
    {session : Session}
    (reached : engine.Reaches session)
    (text : String)
    (line : Nat) :
    (engine.loading session text).scopesBefore line =
      (engine.loader.load []
        (LoadRequest.above (Script.parse text).commands line)).scopes := by
  have trusted :=
    Session.trusts_cached (reached.backed namesModules)
      (LoadRequest.signature
        (LoadRequest.collect (Script.parse text).commands))
  have sorted :=
    LoadRequest.beforeFirst_collect (Script.parse_sorted text) line
  unfold LoadRequest.above
  rw [← Loader.scopesBefore_of_sorted sorted]
  simp only [loading, Loading.scopesBefore,
    Loader.modules_load_of_trusts trusted]

end Engine

end ScriptCompletion
