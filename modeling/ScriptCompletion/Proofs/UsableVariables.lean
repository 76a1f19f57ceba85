import ScriptCompletion.Proofs.AliasCoherence
import ScriptCompletion.Proofs.ScopeMerging
import ScriptCompletion.Proofs.SuggestionLists
import ScriptCompletion.Proofs.VariableNames

namespace ScriptCompletion

open Script (Event)

/-!
# Offered variables can be used

A variable is bound by the evaluator of some command, and there are two of them: `set`
binds nothing that is not the name of a variable, whatever it is given, and `connect` binds
a name of its own.  Modules of manifests have no evaluators, and modules that a session
keeps are of the same kind as those that are looked up.  So in all scopes that a walk makes,
at every depth, every variable has the name of one.  This is what the lexer reads as a
variable, and the token refers to the variable again.
-/

/-- Whatever an evaluator of the module binds is one variable with the name of one. -/
def Module.BindsNames (module : Module) : Prop :=
  ∀ entry ∈ module.commands,
    ∀ evaluation,
      entry.evaluator = some evaluation →
      ∀ request bindings,
        Evaluation.CanBind (evaluation request) bindings →
        ∃ name text,
          isVariableName name = true ∧ bindings = [.ofVariable name text]

theorem standardModule_bindsNames (loadable : List String) :
    (standardModule loadable).BindsNames := by
  intro entry offered evaluation isEvaluator request bindings canBind
  rw [Standard.evaluation_eq offered isEvaluator] at canBind
  exact Standard.isVariableName_of_setBindings canBind

theorem aragonModule_bindsNames :
    aragonModule.BindsNames := by
  intro entry offered evaluation isEvaluator request bindings canBind
  rw [Aragon.evaluation_eq offered isEvaluator] at canBind
  obtain ⟨address, rfl⟩ := Aragon.eq_connected_of_connect canBind
  exact ⟨"$dao", address, by decide, rfl⟩

theorem Manifest.bindsNames_toModule
    (manifest : Manifest)
    (name : String) :
    (manifest.toModule name).BindsNames := by
  intro entry offered evaluation isEvaluator
  rw [manifest.evaluator_toModule name entry offered] at isEvaluator
  cases isEvaluator

/-- Whatever the collaborators answer, a look-up gives a module that binds names. -/
theorem Directory.OnlyBuiltin.bindsNames_lookup
    {directory : Directory}
    (onlyBuiltin : directory.OnlyBuiltin)
    {collaborators : Collaborators}
    {name : String}
    {module : Module}
    (found :
      (directory.lookup collaborators name).answer.content = .ok module) :
    module.BindsNames := by
  rcases onlyBuiltin.source_of_lookup found with rfl | ⟨manifest, rfl⟩
  · exact aragonModule_bindsNames
  · exact manifest.bindsNames_toModule name

/-- What a pass loads binds names, if what the session keeps does. -/
theorem Engine.bindsNames_of_mem_loading
    {engine : Engine}
    (onlyBuiltin : engine.registry.OnlyBuiltin)
    {session : Session}
    (kept : AllModules Module.BindsNames session.bindings)
    {text : String}
    {loaded : LoadedModule}
    (isLoaded : loaded ∈ (engine.loading session text).modules) :
    loaded.module.BindsNames := by
  rcases Loader.mem_cached_or_lookup isLoaded with isCached | looked
  · exact (Session.of_mem_cached kept isCached).2
  · exact onlyBuiltin.bindsNames_lookup (Loader.lookup_registry looked)

/-!
## Sessions
-/

/-- The sessions that passes and invalidations can lead to.  Every pass has an engine of its
own with a registry of manifests and of the organisation module, so the collaborators need
not answer two passes alike. -/
def Session.ReachedByBuiltin (session : Session) : Prop :=
  ∃ (engines : Nat → Engine) (requests : Nat → PassRequest)
      (steps : List SessionStep) (final : Interleaving),
    (∀ pass, (engines pass).registry.OnlyBuiltin) ∧
      Interleaving.run? (fun pass => (engines pass).plan requests pass)
          (.initial .initial) steps =
        some final ∧
      final.session = session

/-- All modules that the session keeps, and all that drafted passes may still write to it,
have the property. -/
structure Interleaving.KeepsModules
    (Property : Module → Prop)
    (state : Interleaving) : Prop where
  session : AllModules Property state.session.bindings
  drafts :
    ∀ pass ticket draft,
      state.phase pass = .drafted ticket draft →
      AllModules Property draft.environment.bindings

namespace Interleaving.KeepsModules

variable {Property : Module → Prop} {state : Interleaving}

/-- A pass changes its phase, and the session is one that keeps the property. -/
theorem setPhase
    (keeps : state.KeepsModules Property)
    {session : Session}
    (kept : AllModules Property session.bindings)
    (pass : Nat)
    {next : PassPhase}
    (drafted :
      ∀ ticket draft,
        next = .drafted ticket draft →
        AllModules Property draft.environment.bindings)
    (writes : List SessionWrite) :
    KeepsModules Property
      ⟨session, Interleaving.setPhase state.phase pass next, writes⟩ := by
  refine ⟨kept, ?_⟩
  intro query ticket draft phase
  by_cases samePass : query = pass
  · subst query
    simp only [setPhase_same] at phase
    exact drafted ticket draft phase
  · simp only [setPhase_other _ samePass] at phase
    exact keeps.drafts query ticket draft phase

/-- No step brings in other modules, if drafts made of such modules have none. -/
theorem step
    {plan : PassPlan}
    (drafting :
      ∀ pass session,
        AllModules Property session.bindings →
        AllModules Property (plan pass session).environment.bindings)
    {next : Interleaving}
    {step : SessionStep}
    (keeps : state.KeepsModules Property)
    (accepted : state.step? plan step = some next) :
    next.KeepsModules Property := by
  rcases step?_cases accepted with
    ⟨pass, rfl, phase, rfl⟩ | ⟨pass, ticket, rfl, phase, rfl⟩ |
      ⟨pass, ticket, draft, rfl, phase, latest, rfl⟩ |
      ⟨pass, ticket, draft, rfl, phase, superseded, rfl⟩ | ⟨rfl, rfl⟩
  · have stillKept : AllModules Property state.session.begin.2.bindings :=
      keeps.session
    refine keeps.setPhase stillKept pass ?_ state.writes
    intro ticket draft impossible
    cases impossible
  · refine keeps.setPhase keeps.session pass ?_ state.writes
    intro own draft isDrafted
    cases isDrafted
    exact drafting pass state.session keeps.session
  · -- The modules were read when the pass was drafted, maybe from another session.
    have stored :=
      Session.allModules_store keeps.session draft.signature
        (keeps.drafts pass ticket draft phase)
    refine keeps.setPhase stored pass ?_ _
    intro own draft impossible
    cases impossible
  · refine keeps.setPhase keeps.session pass ?_ state.writes
    intro own draft impossible
    cases impossible
  · refine ⟨?_, keeps.drafts⟩
    intro binding member
    cases member

end Interleaving.KeepsModules

/-- However passes overlap, a session keeps modules that bind names. -/
theorem Session.ReachedByBuiltin.bindNames
    {session : Session}
    (reached : session.ReachedByBuiltin) :
    AllModules Module.BindsNames session.bindings := by
  obtain ⟨engines, requests, steps, final, onlyBuiltin, accepted, rfl⟩ := reached
  have begins :
      (Interleaving.initial .initial).KeepsModules Module.BindsNames := by
    refine ⟨?_, ?_⟩
    · intro binding member
      cases member
    · intro pass ticket draft phase
      cases phase
  have ends : final.KeepsModules Module.BindsNames := by
    refine Interleaving.run?_preserves (Interleaving.KeepsModules.step ?_) begins
      accepted
    intro pass session kept
    apply Loading.allModules_scopesOf
    intro loaded isLoaded
    exact Engine.bindsNames_of_mem_loading (onlyBuiltin pass) kept isLoaded
  exact ends.session

/-!
## Scopes
-/

namespace Scopes

/-- Scopes in which every variable has the name of one, and in which no evaluator would
change this. -/
structure HoldsNames (scopes : Scopes) : Prop where
  built : scopes.IsBuilt
  bindNames : AllModules Module.BindsNames scopes.bindings
  named :
    ∀ binding ∈ scopes.bindings,
      Binding.space binding = .variable →
      isVariableName binding.name = true

namespace HoldsNames

variable {scopes : Scopes}

theorem enter
    (holds : scopes.HoldsNames)
    (context : Option String) :
    (scopes.enter context).HoldsNames := by
  refine ⟨.enter holds.built context, ?_, ?_⟩
  · exact allModules_enter holds.bindNames context
  · rw [bindings_enter]
    exact holds.named

theorem exit
    (holds : scopes.HoldsNames)
    {outside : Scopes}
    (left : scopes.exit = .ok outside) :
    outside.HoldsNames := by
  refine ⟨.exit holds.built left, allModules_exit holds.bindNames left, ?_⟩
  intro binding member
  exact holds.named binding (mem_bindings_of_exit left member)

theorem bindAll
    (holds : scopes.HoldsNames)
    {added : List Binding}
    (bindNames : AllModules Module.BindsNames added)
    (named :
      ∀ binding ∈ added,
        Binding.space binding = .variable →
        isVariableName binding.name = true) :
    (scopes.bindAll added).HoldsNames := by
  refine ⟨.bindAll holds.built added, ?_, ?_⟩
  · exact allModules_bindAll holds.bindNames bindNames
  · intro binding member
    rcases mem_bindings_bindAll member with isPresent | isNew
    · exact holds.named binding isPresent
    · exact named binding isNew

/-- Whatever a visit binds can be bound, in the scopes themselves or in a block. -/
theorem bindAll_visit
    (holds : scopes.HoldsNames)
    {inside : Scopes}
    (insideHolds : inside.HoldsNames)
    (evaluator : Evaluator)
    (command : Script.Command) :
    (inside.bindAll
      (evaluator.visit scopes command).outcome.bindings).HoldsNames := by
  rcases Evaluator.canBind_of_visit holds.bindNames command with
    nothing | ⟨module, entry, evaluation, request, bindsNames, offered,
      isEvaluator, canBind⟩
  · rw [nothing]
    exact insideHolds
  · obtain ⟨name, text, isName, isBound⟩ :=
      bindsNames entry offered evaluation isEvaluator request _ canBind
    rw [isBound]
    refine insideHolds.bindAll (allModules_ofVariable name text) ?_
    rw [List.forall_mem_singleton]
    intro isVariable
    exact isName

end HoldsNames

end Scopes

namespace Walk

variable {evaluator : Evaluator} {cursor : Position}

/-- No step of the walk binds a variable that has not the name of one. -/
theorem holdsNames_follow
    {walk : Walk}
    (holds : walk.scopes.HoldsNames)
    (event : Event) :
    (walk.follow evaluator cursor event).scopes.HoldsNames := by
  rcases follow_cases evaluator cursor walk event with
    ⟨sameScopes, -⟩ | ⟨command, -, bound, -⟩ | ⟨left, -⟩
  · rw [sameScopes]
    exact holds
  · rw [bound]
    split
    · exact holds.bindAll_visit (holds.enter _) evaluator command
    · exact holds.bindAll_visit holds evaluator command
  · exact holds.exit left

theorem holdsNames_foldl_follow
    {walk : Walk}
    (holds : walk.scopes.HoldsNames)
    (events : List Event) :
    (events.foldl (follow evaluator cursor) walk).scopes.HoldsNames := by
  induction events generalizing walk with
  | nil =>
      exact holds
  | cons event rest inductionHypothesis =>
      exact inductionHypothesis (holdsNames_follow holds event)

/-- A walk that starts without other variables ends without. -/
theorem holdsNames_of_start
    {scopes : Scopes}
    (holds : scopes.HoldsNames)
    (events : List Event) :
    (events.foldl (follow evaluator cursor) (.start scopes)).scopes.HoldsNames := by
  have starts : (Walk.start scopes).scopes.HoldsNames := holds
  exact holdsNames_foldl_follow starts events

end Walk

namespace Engine

variable {engine : Engine} {session : Session}

/-- The walk of a pass starts without variables. -/
theorem holdsNames_start
    (onlyBuiltin : engine.registry.OnlyBuiltin)
    (kept : AllModules Module.BindsNames session.bindings)
    (text : String)
    (line : Nat) :
    (engine.initialScopes.merge
      ((engine.loading session text).scopesBefore line)).HoldsNames := by
  have initial : engine.initialScopes.HoldsNames := by
    refine ⟨.bind .root _, ?_, ?_⟩
    · rw [bindings_initialScopes]
      intro binding member module isModule
      cases List.mem_singleton.mp member
      cases isModule
      exact standardModule_bindsNames engine.registry.names
    · rw [bindings_initialScopes, List.forall_mem_singleton]
      intro isVariable
      cases isVariable
  refine initial.bindAll ?_ ?_
  · apply Loading.allModules_scopesOf
    intro loaded isSelected
    exact bindsNames_of_mem_loading onlyBuiltin kept
      (List.mem_filter.mp isSelected).1
  · -- Loads bind modules and aliases only.
    intro binding member isVariable
    rcases Scopes.mem_bindings_bindAll member with impossible | isLoaded
    · cases impossible
    · obtain ⟨loaded, -, inBindings⟩ := List.mem_flatMap.mp isLoaded
      exact absurd isVariable (LoadedModule.space_of_mem_bindings inBindings)

/-- At the cursor every variable has the name of one. -/
theorem holdsNames_journey
    (onlyBuiltin : engine.registry.OnlyBuiltin)
    (kept : AllModules Module.BindsNames session.bindings)
    (text : String)
    (cursor : Position) :
    (engine.journey (engine.loading session text) (Script.parse text).commands
      cursor).scopes.HoldsNames := by
  rw [journey_eq]
  have starts := holdsNames_start onlyBuiltin kept text cursor.line
  exact Walk.holdsNames_of_start starts _

end Engine

/-!
## What an offered name is good for
-/

namespace Scopes

/-- A binding keeps all keys where they are, and at most adds its own behind them. -/
theorem map_key_bindings_bind
    (scopes : Scopes)
    (binding : Binding) :
    (scopes.bindAll [binding]).bindings.map Binding.key =
        scopes.bindings.map Binding.key ∨
      (scopes.bindAll [binding]).bindings.map Binding.key =
        scopes.bindings.map Binding.key ++ [Binding.key binding] := by
  have inOrder (scopes : Scopes) :
      scopes.bindings.map Binding.key =
        (scopes.outer.reverse.flatMap Frame.bindings).map Binding.key ++
          scopes.innermost.bindings.map Binding.key := by
    simp [bindings, frames]
  have replaced :
      (scopes.bindAll [binding]).innermost.bindings =
        Keyed.put Binding.key binding scopes.innermost.bindings :=
    rfl
  rw [inOrder, inOrder scopes, outer_bindAll, replaced, Keyed.map_key_put]
  split
  · exact .inl rfl
  · exact .inr (List.append_assoc ..).symm

/-- Binding a name again that can be seen adds no name. -/
theorem visibleNames_bindAll_of_seen
    {scopes : Scopes}
    {binding : Binding}
    (seen : binding.name ∈ scopes.visibleNames (Binding.space binding)) :
    (scopes.bindAll [binding]).visibleNames (Binding.space binding) =
      scopes.visibleNames (Binding.space binding) := by
  rw [InsertionLog.visibleNames_eq_keyNames] at seen
  rw [InsertionLog.visibleNames_eq_keyNames,
    InsertionLog.visibleNames_eq_keyNames scopes]
  have isKnown := Keyed.mem_distinctBy_id.mp seen
  rcases scopes.map_key_bindings_bind binding with sameKeys | oneMore
  · rw [sameKeys]
  · generalize scopes.bindings.map Binding.key = keys at oneMore isKnown
    have behind :
        InsertionLog.keyNames (Binding.space binding)
            (keys ++ [Binding.key binding]) =
          InsertionLog.keyNames (Binding.space binding) keys ++
            [binding.name] := by
      simp [InsertionLog.keyNames, Binding.key]
    rw [oneMore, behind, Keyed.distinctBy_append]
    simp [Keyed.distinctBy, isKnown]

/-- A name that can be written where it is offered and then refers to its variable. -/
structure IsUsable
    (scopes : Scopes)
    (name : String) : Prop where
  isName : isVariableName name = true
  /-- Alone it is one token, and nothing is wrong with it. -/
  alone :
    Script.lex name =
      { tokens :=
          [.ofName name 0 0,
            { kind := .endOfText
              value := ""
              line := 0
              column := name.length
              stopColumn := name.length }]
        problems := [] }
  /-- So it is where it is put between two lexemes of a text, in front of a character that
  ends a word or at the end. -/
  inserted :
    ∀ before after : String,
      let lexer := before.toList.foldl Script.Lexer.step .initial
      lexer.mode = .idle →
      (∀ character ∈ after.toList.head?, Script.isWordBoundary character = true) →
      .ofName name lexer.line lexer.column ∈
        (Script.lex (before ++ name ++ after)).tokens
  /-- As an argument such a token stands for the text of the variable, also for
  evaluators that are shown these scopes. -/
  asArgument :
    ∃ text,
      scopes.lookup .variable name = some (.ofVariable name text) ∧
        ∀ token : Script.Token,
          token.kind = .variable →
          token.value = name →
          (Script.Argument.ofToken token).resolve scopes.variableText? = text ∧
            ∀ request : EvaluationRequest,
              request.scopes = scopes.view →
              (Script.Argument.ofToken token).resolve request.variableText? =
                text
  /-- Where `set` is given such a token and a value, it binds the name again: the name
  stands for the new value, and no other name comes with it. -/
  asTarget :
    ∀ token : Script.Token,
      token.kind = .variable →
      token.value = name →
      ∀ request value rest,
        request.command.arguments = .ofToken token :: value :: rest →
        let bound := Binding.ofVariable name (value.resolve request.variableText?)
        Standard.setBindings request = .ok [bound] ∧
          (scopes.bindAll [bound]).lookup .variable name = some bound ∧
          (scopes.bindAll [bound]).visibleNames .variable =
            scopes.visibleNames .variable

/-- Where every variable has the name of one, those that can be seen can be used. -/
theorem HoldsNames.isUsable
    {scopes : Scopes}
    (holds : scopes.HoldsNames)
    {name : String}
    (seen : name ∈ scopes.visibleNames .variable) :
    scopes.IsUsable name := by
  obtain ⟨binding, isVisible, rfl⟩ := List.mem_map.mp seen
  have isFound := (mem_visible_iff_lookup holds.built.areDistinct).mp isVisible
  obtain ⟨isVariable, -⟩ := Binding.key_eq_iff.mp (key_of_lookup isFound)
  obtain ⟨text, shape⟩ := eq_ofVariable_of_space isVariable
  have found :
      scopes.lookup .variable binding.name =
        some (.ofVariable binding.name text) := by
    rw [← shape]
    exact isFound
  have isName : isVariableName binding.name = true :=
    holds.named binding (mem_bindings_of_mem_visible isVisible) isVariable
  refine
    { isName := isName
      alone := Script.lex_name isName
      inserted := fun _ _ idle ends => Script.mem_tokens_lex_of_name isName idle ends
      asArgument := ⟨text, found, ?_⟩
      asTarget := ?_ }
  · intro token isToken isValue
    have known : scopes.variableText? binding.name = some text := by
      rw [variableText?, found]
      rfl
    constructor
    · rw [resolve_ofToken_of_variable isToken, isValue, known, Option.getD_some]
    · intro request isShown
      rw [resolve_ofToken_of_variable isToken, isValue,
        EvaluationRequest.variableText?, isShown, variableText?_view, known,
        Option.getD_some]
  · intro token isToken isValue request value rest arguments bound
    have isTarget : (Script.Argument.ofToken token).raw = binding.name := isValue
    refine ⟨?_, ?_, visibleNames_bindAll_of_seen seen⟩
    · rw [Standard.setBindings_eq_ok arguments (isTarget ▸ isName), isTarget]
    · have isBound :
          Keyed.find? Binding.key (.variable, binding.name) [bound].reverse =
            some bound :=
        List.find?_cons_of_pos (decide_eq_true rfl)
      rw [lookup_bindAll, isBound, Option.some_or]

end Scopes

namespace Engine

/--
Offered variables can be used.  Take an engine whose registry has no module at hand but the
organisation module, and any session that passes of such engines can lead to, whatever the
collaborators answered then and answer now.  A pass over any text with any cursor that
completes, whatever the session is when it ends, offers as variables nothing but names of
variables: each is read by the lexer as one variable, alone and wherever it is put between
two lexemes, and such a token refers to the variable that is in scope at the cursor, as an
argument and as what `set` binds.
-/
theorem offered_variables_usable
    (engine : Engine)
    (onlyBuiltin : engine.registry.OnlyBuiltin)
    (session : Session)
    (reached : session.ReachedByBuiltin)
    (text : String)
    (cursor : Position)
    (ending : Session)
    (ticket : Ticket)
    (items : List Suggestion.Item)
    (completed :
      ((engine.draft session text cursor).conclude ending ticket).1.outcome =
        .completed items)
    (item : Suggestion.Item)
    (offered : item ∈ items)
    (isVariable : item.kind = .variable) :
    (engine.journey (engine.loading session text) (Script.parse text).commands
      cursor).scopes.IsUsable item.label := by
  obtain ⟨-, rfl⟩ := outcome_conclude_iff.mp completed
  have listed := mem_of_mem_limit (engine.items_draft session text cursor ▸ offered)
  have holds := holdsNames_journey onlyBuiltin reached.bindNames text cursor
  exact holds.isUsable (Suggestion.label_mem_visibleNames listed isVariable)

/--
A script with a module whose manifest can no longer be fetched, which the session still
keeps from an earlier pass, and with two targets of `set` that are no names.  In the block
three variables are offered, and the last one can be used.
-/
theorem offered_variables_usable_inside_block :
    let registry :=
      (Registry.builtin.registerRemote "giveth" "ipfs:giveth").directory
    let earlier : Engine :=
      { standalone with
        registry := registry
        collaborators :=
          .offline [] [("ipfs:giveth", "[[commands]]\nname = \"donate\"\n")] }
    let engine : Engine :=
      { standalone with
        registry := registry
        collaborators :=
          .offline
            [("open.aragonid.eth", "0x2222222222222222222222222222222222222222")]
            [] }
    let text :=
      "load aragonos\nload giveth\nset $a 1\nset \"$b\" 2\nset $c-d 3\n" ++
        "connect open (\n  set $e $a\n  exec \n"
    let cursor : Position := ⟨7, 7⟩
    let session := (earlier.complete .initial ⟨text, cursor⟩).2
    let draft := engine.draft session text cursor
    let scopes :=
      (engine.journey (engine.loading session text)
        (Script.parse text).commands cursor).scopes
    engine.registry.OnlyBuiltin ∧
      session.ReachedByBuiltin ∧
      (draft.conclude session ⟨1⟩).1.outcome = .completed draft.items ∧
      draft.report.loadFailures = [] ∧
      (Suggestion.ofKind .variable draft.items).map Suggestion.Item.label =
        ["$a", "$dao", "$e"] ∧
      scopes.IsUsable "$e" := by
  intro registry earlier engine text cursor session draft scopes
  have onlyBuiltin : registry.OnlyBuiltin :=
    (Registry.onlyBuiltin_builtin.registerRemote "giveth"
      "ipfs:giveth").directory
  have reached : session.ReachedByBuiltin :=
    ⟨fun _ => earlier, fun _ => ⟨text, cursor⟩, [.begin 0, .read 0, .commit 0], _,
      fun _ => onlyBuiltin, rfl, rfl⟩
  have completed :
      (draft.conclude session ⟨1⟩).1.outcome = .completed draft.items :=
    outcome_conclude_iff.mpr ⟨rfl, rfl⟩
  have computed :
      draft.report.loadFailures = [] ∧
        (Suggestion.ofKind .variable draft.items).map Suggestion.Item.label =
          ["$a", "$dao", "$e"] := by
    decide +kernel
  have isLabel :
      "$e" ∈ (Suggestion.ofKind .variable draft.items).map Suggestion.Item.label := by
    rw [computed.2]
    simp
  obtain ⟨item, isItem, label⟩ := List.mem_map.mp isLabel
  obtain ⟨offered, isVariable⟩ := List.mem_filter.mp isItem
  have usable :=
    offered_variables_usable engine onlyBuiltin session reached text cursor
      session ⟨1⟩ draft.items completed item offered (beq_iff_eq.mp isVariable)
  rw [label] at usable
  exact ⟨onlyBuiltin, reached, completed, computed.1, computed.2, usable⟩

end Engine

end ScriptCompletion
