import ScriptCompletion.Engine.Pass
import ScriptCompletion.Proofs.ModuleSupply
import ScriptCompletion.Proofs.WalkTrace

namespace ScriptCompletion

open Script (Event)

/-!
# Evaluators that read headings

An evaluator computes what a command binds from the command, what is in scope and
the answers of the collaborators.  It is handed the command as a whole, and with
it the block that stands behind the arguments.  If no evaluator looks there,
neither those of the modules in scope nor those of the modules that they bind,
then the walk depends on the outline of the script alone.  The modules that are
always at hand are of this kind, and those of manifests have no evaluators at
all.  A module of another kind is kept here to show what can be seen without the
condition.
-/

/-- The bindings that an evaluation can end with, whatever it is answered. -/
def Evaluation.CanBind : Evaluation → List Binding → Prop
  | .finished _ result, bindings =>
      result = .ok bindings
  | .resolving _ _ next, bindings =>
      ∃ answer, CanBind (next answer) bindings
  | .fetching _ _ next, bindings =>
      ∃ answer, CanBind (next answer) bindings

/-- The evaluators of the module, and those of the modules that they bind, look
at nothing but the heading of a command. -/
inductive Module.ReadsHeadings : Module → Prop where
  | intro
      {module : Module}
      (reads :
        ∀ entry ∈ module.commands,
          ∀ evaluation,
            entry.evaluator = some evaluation →
            ∀ command scopes,
              evaluation ⟨command.heading, scopes⟩ =
                evaluation ⟨command, scopes⟩)
      (binds :
        ∀ entry ∈ module.commands,
          ∀ evaluation,
            entry.evaluator = some evaluation →
            ∀ request bindings,
              Evaluation.CanBind (evaluation request) bindings →
              ∀ binding ∈ bindings,
                ∀ bound,
                  Binding.module? binding = some bound →
                  ReadsHeadings bound) :
      ReadsHeadings module

namespace Module.ReadsHeadings

theorem evaluation_heading
    {module : Module}
    (readsHeadings : module.ReadsHeadings)
    {entry : CommandEntry}
    (offered : entry ∈ module.commands)
    {evaluation : EvaluationRequest → Evaluation}
    (isEvaluator : entry.evaluator = some evaluation)
    (command : Script.Command)
    (scopes : ScopesView) :
    evaluation ⟨command.heading, scopes⟩ =
      evaluation ⟨command, scopes⟩ := by
  cases readsHeadings with
  | intro reads binds =>
      exact reads entry offered evaluation isEvaluator command scopes

theorem allModules_of_canBind
    {module : Module}
    (readsHeadings : module.ReadsHeadings)
    {entry : CommandEntry}
    (offered : entry ∈ module.commands)
    {evaluation : EvaluationRequest → Evaluation}
    (isEvaluator : entry.evaluator = some evaluation)
    {request : EvaluationRequest}
    {bindings : List Binding}
    (canBind : Evaluation.CanBind (evaluation request) bindings) :
    AllModules ReadsHeadings bindings := by
  cases readsHeadings with
  | intro reads binds =>
      exact binds entry offered evaluation isEvaluator request bindings canBind

/-- A module without evaluators. -/
theorem of_plain
    {module : Module}
    (plain : ∀ entry ∈ module.commands, entry.evaluator = none) :
    module.ReadsHeadings := by
  constructor
  · intro entry offered evaluation isEvaluator
    rw [plain entry offered] at isEvaluator
    cases isEvaluator
  · intro entry offered evaluation isEvaluator
    rw [plain entry offered] at isEvaluator
    cases isEvaluator

end Module.ReadsHeadings

/-- A list of variables binds no modules. -/
theorem allModules_ofVariable
    {Property : Module → Prop}
    (name text : String) :
    AllModules Property [.ofVariable name text] := by
  intro binding member module isModule
  rw [List.mem_singleton] at member
  subst binding
  cases isModule

/-- `set` is the command of the standard module that is evaluated. -/
theorem Standard.evaluation_eq
    {loadable : List String}
    {entry : CommandEntry}
    (offered : entry ∈ (standardModule loadable).commands)
    {evaluation : EvaluationRequest → Evaluation}
    (isEvaluator : entry.evaluator = some evaluation) :
    evaluation = fun request => .finished 0 (setBindings request) := by
  simp only [standardModule, Standard.commands, List.mem_cons,
    List.not_mem_nil, or_false] at offered
  rcases offered with rfl | rfl | rfl
  · cases isEvaluator
  · exact (Option.some.inj isEvaluator).symm
  · cases isEvaluator

/-- `set` binds a variable with the name of one. -/
theorem Standard.isVariableName_of_setBindings
    {request : EvaluationRequest}
    {bindings : List Binding}
    (bound : setBindings request = .ok bindings) :
    ∃ name text,
      isVariableName name = true ∧ bindings = [.ofVariable name text] := by
  unfold setBindings at bound
  split at bound
  · cases bound
  · split at bound
    · rename_i isName
      split at bound
      · cases bound
      · cases bound
        exact ⟨_, _, isName, rfl⟩
    · cases bound

/-- `set` binds a variable. -/
theorem Standard.eq_ofVariable_of_setBindings
    {request : EvaluationRequest}
    {bindings : List Binding}
    (bound : setBindings request = .ok bindings) :
    ∃ name text, bindings = [.ofVariable name text] := by
  obtain ⟨name, text, -, shape⟩ := isVariableName_of_setBindings bound
  exact ⟨name, text, shape⟩

/-- `set` reads its arguments and binds a variable. -/
theorem standardModule_readsHeadings (loadable : List String) :
    (standardModule loadable).ReadsHeadings := by
  constructor
  · intro entry offered evaluation isEvaluator command scopes
    rw [Standard.evaluation_eq offered isEvaluator]
    rfl
  · intro entry offered evaluation isEvaluator request bindings canBind
    rw [Standard.evaluation_eq offered isEvaluator] at canBind
    obtain ⟨name, text, rfl⟩ := Standard.eq_ofVariable_of_setBindings canBind
    exact allModules_ofVariable name text

/-- `connect` is the command of the organisation module that is evaluated. -/
theorem Aragon.evaluation_eq
    {entry : CommandEntry}
    (offered : entry ∈ aragonModule.commands)
    {evaluation : EvaluationRequest → Evaluation}
    (isEvaluator : entry.evaluator = some evaluation) :
    evaluation = connect := by
  simp only [aragonModule, Aragon.commands, List.mem_cons,
    List.not_mem_nil, or_false] at offered
  rcases offered with rfl | rfl | rfl | rfl | rfl | rfl
  · exact (Option.some.inj isEvaluator).symm
  all_goals cases isEvaluator

/-- `connect` binds the variable of the organisation. -/
theorem Aragon.eq_connected_of_connect
    {request : EvaluationRequest}
    {bindings : List Binding}
    (canBind : Evaluation.CanBind (connect request) bindings) :
    ∃ address, bindings = connected address := by
  simp only [connect] at canBind
  split at canBind
  · cases canBind
  · split at canBind
    · cases canBind
      exact ⟨_, rfl⟩
    · obtain ⟨answer, concluded⟩ := canBind
      cases answer with
      | error error =>
          cases concluded
      | ok address? =>
          cases address? with
          | none =>
              cases concluded
          | some address =>
              cases concluded
              exact ⟨address, rfl⟩

/-- `connect` binds a variable. -/
theorem Aragon.eq_ofVariable_of_connect
    {request : EvaluationRequest}
    {bindings : List Binding}
    (canBind : Evaluation.CanBind (connect request) bindings) :
    ∃ name text, bindings = [.ofVariable name text] := by
  obtain ⟨address, rfl⟩ := eq_connected_of_connect canBind
  exact ⟨_, address, rfl⟩

/-- `connect` reads its first argument and binds a variable. -/
theorem aragonModule_readsHeadings :
    aragonModule.ReadsHeadings := by
  constructor
  · intro entry offered evaluation isEvaluator command scopes
    rw [Aragon.evaluation_eq offered isEvaluator]
    rfl
  · intro entry offered evaluation isEvaluator request bindings canBind
    rw [Aragon.evaluation_eq offered isEvaluator] at canBind
    obtain ⟨name, text, rfl⟩ := Aragon.eq_ofVariable_of_connect canBind
    exact allModules_ofVariable name text

/-- The evaluators of all modules that can be looked up read headings. -/
def Directory.ReadsHeadings (directory : Directory) : Prop :=
  ∀ collaborators name module,
    (directory.lookup collaborators name).answer.content = .ok module →
    module.ReadsHeadings

namespace Registry

/-- Where the modules at hand read headings, all modules do: those of manifests have
no evaluators. -/
theorem directory_readsHeadings
    {registry : Registry}
    (readsHeadings :
      ∀ name module,
        (name, ModuleSource.atHand module) ∈ registry.entries →
        module.ReadsHeadings) :
    registry.directory.ReadsHeadings := by
  intro collaborators name module found
  rcases source_of_lookup found with isAtHand | ⟨manifest, rfl⟩
  · exact readsHeadings name module isAtHand
  · exact .of_plain (manifest.evaluator_toModule name)

theorem builtin_readsHeadings :
    builtin.directory.ReadsHeadings := by
  apply directory_readsHeadings
  intro name module member
  rw [atHand_builtin member]
  exact aragonModule_readsHeadings

end Registry

/-- A module that does not read headings: its command binds a variable if there are
commands in its block. -/
def blockReader : Module :=
  (Module.named "m").withCommand
    (.evaluated "count" "" fun request =>
      match request.command.block with
      | some ⟨_ :: _, _, _⟩ =>
          .finished 0 (.ok [Binding.ofVariable "$busy" "yes"])
      | _ =>
          .finished 0 (.ok []))

/-- An engine with this module. -/
def Engine.readingBlocks : Engine :=
  { standalone with
    registry := (Registry.empty.register blockReader).directory }

/-- The modules of a script that are loaded without a cache read headings. -/
theorem Loader.readsHeadings_of_mem_modules
    {loader : Loader}
    (readsHeadings : loader.registry.ReadsHeadings)
    {requests : List LoadRequest}
    {loaded : LoadedModule}
    (member : loaded ∈ (loader.load [] requests).modules) :
    loaded.module.ReadsHeadings := by
  have looked := lookup_of_mem_modules member
  exact readsHeadings _ _ _ (lookup_registry looked)

theorem Engine.bindings_initialScopes (engine : Engine) :
    engine.initialScopes.bindings =
      [.ofModule Script.standardName (standardModule engine.registry.names)] :=
  rfl

/-- Together with the standard module, what reads headings reads headings. -/
theorem Engine.readsHeadings_merge
    (engine : Engine)
    {loaded : Scopes}
    (readsHeadings : AllModules Module.ReadsHeadings loaded.bindings) :
    AllModules Module.ReadsHeadings
      (engine.initialScopes.merge loaded).bindings := by
  refine Scopes.allModules_bindAll ?_ readsHeadings
  intro binding member module isModule
  rw [bindings_initialScopes, List.mem_singleton] at member
  subst binding
  cases isModule
  exact standardModule_readsHeadings engine.registry.names

/-- The visit with the heading of the command in its place. -/
def Visit.heading (visit : Visit) : Visit :=
  { visit with command := visit.command.heading }

@[simp]
theorem Visit.outcome_heading (visit : Visit) :
    visit.heading.outcome = visit.outcome :=
  rfl

/-- What goes into a report stands in the heading. -/
@[simp]
theorem Visit.failure?_heading (visit : Visit) :
    visit.heading.failure? = visit.failure? := by
  simp [failure?, heading]

namespace Evaluator

theorem canBind_of_conclude
    {evaluator : Evaluator}
    {evaluation : Evaluation}
    {bindings : List Binding}
    (bound :
      (evaluator.conclude evaluation).answer.content = .ok bindings) :
    Evaluation.CanBind evaluation bindings := by
  fun_induction Evaluator.conclude evaluator evaluation with
  | case1 delay result =>
      exact bound
  | case2 moment name next resolved inductionHypothesis =>
      exact ⟨resolved.content, inductionHypothesis bound⟩
  | case3 moment address next fetched inductionHypothesis =>
      exact ⟨fetched.content, inductionHypothesis bound⟩

/-- What is bound in the end can be bound by the evaluation. -/
theorem canBind_of_evaluate
    {evaluator : Evaluator}
    {scopes : Scopes}
    {command : Script.Command}
    {evaluation : EvaluationRequest → Evaluation}
    {bindings : List Binding}
    (bound :
      (evaluator.evaluate scopes command evaluation).answer.content =
        .ok bindings) :
    Evaluation.CanBind
      (evaluation
        { command := command
          scopes := scopes.view })
      bindings := by
  simp only [evaluate, Timed.within] at bound
  split at bound
  · cases bound
  · exact canBind_of_conclude bound

@[simp]
theorem command_visit
    (evaluator : Evaluator)
    (scopes : Scopes)
    (command : Script.Command) :
    (evaluator.visit scopes command).command = command := by
  unfold visit
  split
  · rfl
  · split
    · rfl
    · split <;> rfl

variable {evaluator : Evaluator} {scopes : Scopes}

/-- Where all modules read headings, the heading of a command is visited with
the same outcome. -/
theorem visit_heading
    (readsHeadings : AllModules Module.ReadsHeadings scopes.bindings)
    (command : Script.Command) :
    evaluator.visit scopes command.heading =
      (evaluator.visit scopes command).heading := by
  have sameExcluded :
      evaluator.excluded.any command.heading.isStandard =
        evaluator.excluded.any command.isStandard :=
    rfl
  have sameName :
      scopes.resolve command.heading.qualifier command.heading.name =
        scopes.resolve command.qualifier command.name :=
    rfl
  unfold visit
  rw [sameExcluded, sameName]
  split
  · rfl
  · cases resolves : scopes.resolve command.qualifier command.name with
    | error error =>
        rfl
    | ok resolved =>
        obtain ⟨moduleReads, offered⟩ :=
          Scopes.has_of_resolve readsHeadings resolves
        simp only
        cases isEvaluator : resolved.command.evaluator with
        | none =>
            rfl
        | some evaluation =>
            have sameEvaluation :
                evaluator.evaluate scopes command.heading evaluation =
                  evaluator.evaluate scopes command evaluation := by
              simp only [evaluate, Script.Command.qualifiedName_heading,
                moduleReads.evaluation_heading offered isEvaluator]
            simp only [sameEvaluation]
            rfl

/-- What a visit binds was bound by the evaluator of a module in scope. -/
theorem canBind_of_visit
    {Property : Module → Prop}
    (holds : AllModules Property scopes.bindings)
    (command : Script.Command) :
    (evaluator.visit scopes command).outcome.bindings = [] ∨
      ∃ module entry evaluation request,
        Property module ∧
          entry ∈ module.commands ∧
          entry.evaluator = some evaluation ∧
          Evaluation.CanBind (evaluation request)
            (evaluator.visit scopes command).outcome.bindings := by
  unfold visit
  split
  · exact .inl rfl
  · cases resolves : scopes.resolve command.qualifier command.name with
    | error error =>
        exact .inl rfl
    | ok resolved =>
        obtain ⟨moduleHolds, offered⟩ := Scopes.has_of_resolve holds resolves
        simp only
        cases isEvaluator : resolved.command.evaluator with
        | none =>
            exact .inl rfl
        | some evaluation =>
            simp only
            cases bound :
                (evaluator.evaluate scopes command
                  evaluation).answer.content with
            | error error =>
                exact .inl rfl
            | ok bindings =>
                exact .inr ⟨resolved.module, resolved.command, evaluation, _,
                  moduleHolds, offered, isEvaluator, canBind_of_evaluate bound⟩

/-- What a visit binds reads headings too. -/
theorem allModules_visit
    (readsHeadings : AllModules Module.ReadsHeadings scopes.bindings)
    (command : Script.Command) :
    AllModules Module.ReadsHeadings
      (evaluator.visit scopes command).outcome.bindings := by
  rcases canBind_of_visit readsHeadings command with
    nothing | ⟨module, entry, evaluation, request, moduleReads, offered,
      isEvaluator, canBind⟩
  · rw [nothing]
    intro binding member
    cases member
  · exact moduleReads.allModules_of_canBind offered isEvaluator canBind

end Evaluator

namespace Walk

variable {evaluator : Evaluator} {cursor : Position}

/-- The walk with headings in the place of the visited commands. -/
def heading (walk : Walk) : Walk :=
  { walk with visits := walk.visits.map Visit.heading }

/-- All modules in the scopes of the walk read headings. -/
def ReadsHeadings (walk : Walk) : Prop :=
  AllModules Module.ReadsHeadings walk.scopes.bindings

theorem leave_heading (walk : Walk) :
    walk.heading.leave = walk.leave.heading := by
  unfold leave
  have sameScopes : walk.heading.scopes = walk.scopes := rfl
  rw [sameScopes]
  cases walk.scopes.exit <;> rfl

/-- One step of the walk depends on the heading of what it meets. -/
theorem follow_heading
    {walk : Walk}
    (readsHeadings : walk.ReadsHeadings)
    (event : Event) :
    walk.heading.follow evaluator cursor event.heading =
      (walk.follow evaluator cursor event).heading := by
  have sameArrived : walk.heading.arrived = walk.arrived := rfl
  unfold follow
  rw [sameArrived, Event.isPassed_heading]
  split
  · rfl
  · split
    · cases event with
      | visit command =>
          have sameVisit :
              evaluator.visit walk.heading.scopes command.heading =
                (evaluator.visit walk.scopes command).heading :=
            Evaluator.visit_heading readsHeadings command
          simp only [Event.heading, sameVisit,
            Script.Command.isSome_block_heading]
          split <;> rfl
      | close range closed =>
          exact leave_heading walk
    · rfl

/-- One step of the walk brings in no other modules. -/
theorem readsHeadings_follow
    {walk : Walk}
    (readsHeadings : walk.ReadsHeadings)
    (event : Event) :
    (walk.follow evaluator cursor event).ReadsHeadings := by
  unfold follow
  split
  · exact readsHeadings
  · split
    · cases event with
      | visit command =>
          have bound :
              AllModules Module.ReadsHeadings
                (evaluator.visit walk.scopes command).outcome.bindings :=
            Evaluator.allModules_visit readsHeadings command
          simp only
          split
          · exact Scopes.allModules_bindAll
              (Scopes.allModules_enter readsHeadings _) bound
          · exact Scopes.allModules_bindAll readsHeadings bound
      | close range closed =>
          simp only [leave]
          split
          · rename_i outside left
            exact Scopes.allModules_exit readsHeadings left
          · exact readsHeadings
    · exact readsHeadings

theorem foldl_follow_heading
    {walk : Walk}
    (readsHeadings : walk.ReadsHeadings)
    (events : List Event) :
    (events.map Event.heading).foldl (follow evaluator cursor) walk.heading =
      (events.foldl (follow evaluator cursor) walk).heading := by
  induction events generalizing walk with
  | nil =>
      rfl
  | cons event rest inductionHypothesis =>
      rw [List.map_cons, List.foldl_cons, List.foldl_cons,
        follow_heading readsHeadings event,
        inductionHypothesis (readsHeadings_follow readsHeadings event)]

end Walk

/-- The journey with headings in the place of the visited commands. -/
def Journey.heading (journey : Journey) : Journey :=
  { journey with visits := journey.visits.map Visit.heading }

/-- The report of a journey stands in its headings. -/
theorem Journey.report_heading (journey : Journey) :
    journey.heading.report = journey.report := by
  simp [report, heading, List.countP_map, List.filterMap_map,
    Function.comp_def]

/-- Where all modules read headings, the walk depends on the outline of the
script alone. -/
theorem Evaluator.walk_eq_outline
    (evaluator : Evaluator)
    {scopes : Scopes}
    (readsHeadings : AllModules Module.ReadsHeadings scopes.bindings)
    (commands : List Script.Command)
    (cursor : Position) :
    let walk :=
      (Script.outline commands).foldl (Walk.follow evaluator cursor)
        (.start scopes)
    (evaluator.walk commands cursor scopes).heading =
      ⟨walk.scopes, walk.visits.reverse⟩ := by
  have going : (Walk.start scopes).arrived = false := rfl
  have starts : (Walk.start scopes).heading = Walk.start scopes := rfl
  have startReads : (Walk.start scopes).ReadsHeadings := readsHeadings
  have sameWalk :
      (Script.outline commands).foldl (Walk.follow evaluator cursor)
          (.start scopes) =
        (Walk.throughAll evaluator cursor (.start scopes) commands).heading := by
    rw [Walk.throughAll_eq_trace going, ← Walk.foldl_follow_heading startReads,
      starts]
    rfl
  simp [sameWalk, Evaluator.walk, Journey.heading, Walk.heading,
    List.map_reverse]

end ScriptCompletion
