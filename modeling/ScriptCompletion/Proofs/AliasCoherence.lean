import ScriptCompletion.Proofs.ForwardReferences
import ScriptCompletion.Proofs.LexicalScopes
import ScriptCompletion.Proofs.LoadAdmission
import ScriptCompletion.Proofs.RootedScopes

namespace ScriptCompletion

open Script (Event)

/-!
# Aliases come with their modules

A load under an alias binds two things, a module and the alias itself, in two spaces.
They are bound one behind the other, the module first, so at every moment of a pass
an alias that can be seen comes with its module: loads never clash, the modules have
the names that were asked for, and nothing that is evaluated binds anything but
variables.  A qualifier is therefore never an alias without a module.
-/

/-- Every alias among the bindings comes with the module that it stands for, under
its own name. -/
def Binding.ArePaired (bindings : List Binding) : Prop :=
  ∀ name target,
    .ofAlias name target ∈ bindings →
    ∃ module, .ofModule name module ∈ bindings ∧ module.name = target

/-- Every alias that can be seen comes with a module that can be seen under its name
and has the name of its target. -/
def Scopes.AliasesCoherent (scopes : Scopes) : Prop :=
  ∀ name target,
    .ofAlias name target ∈ scopes.visible .alias →
    ∃ module,
      .ofModule name module ∈ scopes.visible .module ∧ module.name = target

namespace Binding.ArePaired

theorem append
    {first second : List Binding}
    (firstPaired : ArePaired first)
    (secondPaired : ArePaired second) :
    ArePaired (first ++ second) := by
  intro name target member
  rcases List.mem_append.mp member with inFirst | inSecond
  · obtain ⟨module, isBound, sameName⟩ := firstPaired name target inFirst
    exact ⟨module, List.mem_append_left second isBound, sameName⟩
  · obtain ⟨module, isBound, sameName⟩ := secondPaired name target inSecond
    exact ⟨module, List.mem_append_right first isBound, sameName⟩

theorem singleton
    (key : String)
    (module : Module) :
    ArePaired [.ofModule key module] := by
  intro name target member
  cases List.mem_singleton.mp member

/-- A loaded module is bound before its alias. -/
theorem take_bindings
    {loaded : LoadedModule}
    (ownName : loaded.module.name = loaded.request.name)
    (count : Nat) :
    ArePaired (loaded.bindings.take count) := by
  unfold LoadedModule.bindings
  cases aliased : loaded.request.aliasName with
  | none =>
      intro name target member
      cases List.mem_singleton.mp (List.mem_of_mem_take member)
  | some aliasName =>
      have isKey : loaded.request.key = aliasName := by
        simp [LoadRequest.key, aliased]
      -- Wherever one stops, the alias is only there behind its module.
      rcases count with - | - | count
      · intro name target member
        cases member
      · exact singleton loaded.request.key loaded.module
      · intro name target member
        simp only [List.take_succ_cons, List.take_nil, List.mem_cons,
          List.not_mem_nil, or_false] at member ⊢
        rcases member with isModule | isAlias
        · cases isModule
        · cases isAlias
          exact ⟨loaded.module, .inl (by rw [isKey]), ownName⟩

theorem take_flatMap_bindings
    {modules : List LoadedModule}
    (ownNames :
      ∀ loaded ∈ modules, loaded.module.name = loaded.request.name)
    (count : Nat) :
    ArePaired ((modules.flatMap LoadedModule.bindings).take count) := by
  induction modules generalizing count with
  | nil =>
      intro name target member
      simp at member
  | cons loaded rest inductionHypothesis =>
      rw [List.forall_mem_cons] at ownNames
      rw [List.flatMap_cons, List.take_append]
      exact (take_bindings ownNames.1 count).append
        (inductionHypothesis ownNames.2 _)

end Binding.ArePaired

/-- What loads leave in a root frame: modules and aliases that do not clash and come
in pairs, and no evaluator that would change this. -/
structure Binding.AreLoads (bindings : List Binding) : Prop where
  distinct : (bindings.map Binding.key).Nodup
  paired : Binding.ArePaired bindings
  noVariables : ∀ binding ∈ bindings, Binding.space binding ≠ .variable
  bindVariables : AllModules Module.BindsVariables bindings

/-- A module that was loaded for its own name and binds variables. -/
structure LoadedModule.IsProper (loaded : LoadedModule) : Prop where
  ownName : loaded.module.name = loaded.request.name
  bindsVariables : loaded.module.BindsVariables

theorem LoadedModule.space_of_mem_bindings
    {loaded : LoadedModule}
    {binding : Binding}
    (member : binding ∈ loaded.bindings) :
    Binding.space binding ≠ .variable := by
  rw [bindings_eq, List.mem_cons, Option.mem_toList] at member
  rcases member with rfl | isAlias
  · intro isVariable
    cases isVariable
  · obtain ⟨aliasName, -, rfl⟩ := Option.map_eq_some_iff.mp isAlias
    intro isVariable
    cases isVariable

namespace Loading

variable {modules : List LoadedModule} {bound : List Binding}

/-- The first bindings of modules, wherever one stops. -/
theorem areLoads_of_prefix
    (apart : KeysApart modules)
    (proper : ∀ loaded ∈ modules, loaded.IsProper)
    (begins : bound <+: modules.flatMap LoadedModule.bindings) :
    Binding.AreLoads bound where
  distinct := by
    have once := (List.nodup_cons.mp (apart.nodup_bindings (.named ""))).2
    exact once.sublist (begins.sublist.map Binding.key)
  paired := by
    rw [List.prefix_iff_eq_take.mp begins]
    exact .take_flatMap_bindings (fun loaded member => (proper loaded member).ownName) _
  noVariables := by
    intro binding member
    obtain ⟨loaded, -, inBindings⟩ := List.mem_flatMap.mp (begins.subset member)
    exact LoadedModule.space_of_mem_bindings inBindings
  bindVariables := by
    intro binding member module isModule
    obtain ⟨loaded, isLoaded, inBindings⟩ :=
      List.mem_flatMap.mp (begins.subset member)
    rw [LoadedModule.module_of_mem_bindings inBindings isModule]
    exact (proper loaded isLoaded).bindsVariables

/-- The same beside the standard module. -/
theorem areLoads_standard
    (apart : KeysApart modules)
    (proper : ∀ loaded ∈ modules, loaded.IsProper)
    (begins : bound <+: modules.flatMap LoadedModule.bindings)
    (loadable : List String) :
    Binding.AreLoads
      ([.ofModule Script.standardName (standardModule loadable)] ++ bound) := by
  have loads := areLoads_of_prefix apart proper begins
  refine
    { distinct := ?_
      paired := (Binding.ArePaired.singleton _ _).append loads.paired
      noVariables := ?_
      bindVariables := ?_ }
  · exact (apart.nodup_bindings (standardModule loadable)).sublist
      ((begins.sublist.cons_cons _).map Binding.key)
  · rw [List.singleton_append, List.forall_mem_cons]
    refine ⟨?_, loads.noVariables⟩
    intro isVariable
    cases isVariable
  · rw [List.singleton_append, AllModules, List.forall_mem_cons]
    refine ⟨?_, loads.bindVariables⟩
    intro module isModule
    cases isModule
    exact standardModule_bindsVariables loadable

end Loading

namespace Scopes

variable {scopes : Scopes} {fixed : List Binding}

/-- Loads are bound one behind the other in the root frame. -/
theorem rooted_bindAll
    (built : scopes.IsBuilt)
    (alone : scopes.outer = [])
    {bound : List Binding}
    (loads : Binding.AreLoads (scopes.bindings ++ bound)) :
    (scopes.bindAll bound).Rooted (scopes.bindings ++ bound) := by
  have inOrder :
      (scopes.bindAll bound).bindings = scopes.bindings ++ bound := by
    apply bindings_bindAll_of_nodup
    rw [← bindings_of_outer alone]
    exact loads.distinct
  rw [← inOrder]
  apply rooted_of_outer (.bindAll built bound)
  · rw [outer_bindAll, alone]
  · rw [inOrder]
    exact loads.noVariables

/-- Where loads alone stand in the root frame, aliases come with their modules. -/
theorem Rooted.aliasesCoherent
    (rooted : scopes.Rooted fixed)
    (loads : Binding.AreLoads fixed) :
    scopes.AliasesCoherent := by
  have visible_iff
      {binding : Binding}
      (notVariable : Binding.space binding ≠ .variable) :
      binding ∈ scopes.visible (Binding.space binding) ↔ binding ∈ fixed := by
    rw [mem_visible_iff_lookup rooted.built.areDistinct,
      rooted.lookup notVariable, Keyed.find?_eq_some_iff loads.distinct]
    simp [Binding.key]
  intro name target seen
  have isFixed : .ofAlias name target ∈ fixed :=
    (visible_iff (fun isVariable => by cases isVariable)).mp seen
  obtain ⟨module, isBound, sameName⟩ := loads.paired name target isFixed
  exact ⟨module,
    (visible_iff (fun isVariable => by cases isVariable)).mpr isBound, sameName⟩

/-- Loads stand in the root frame, and no other modules and aliases anywhere. -/
def HasRootedLoads (scopes : Scopes) : Prop :=
  ∃ fixed, scopes.Rooted fixed ∧ Binding.AreLoads fixed

/-- Where aliases come with their modules, no qualifier is an alias without a
module. -/
theorem AliasesCoherent.resolve_ne
    (coherent : scopes.AliasesCoherent)
    (distinct : scopes.AreDistinct)
    (qualifier : Option String)
    (name unknown : String) :
    scopes.resolve qualifier name ≠ .error (.unknownAlias unknown) := by
  intro resolves
  cases qualifier with
  | none =>
      -- A plain name is not sought among the aliases.
      simp only [resolve, resolvePlain] at resolves
      split at resolves
      · cases resolves
      · split at resolves <;> cases resolves
  | some qualifier =>
      simp only [resolve, resolveQualified] at resolves
      cases bound : scopes.lookup .module qualifier with
      | some binding =>
          simp only [bound] at resolves
          split at resolves <;> cases resolves
      | none =>
          simp only [bound, isSome_aliasTarget?] at resolves
          cases aliased : scopes.lookup .alias qualifier with
          | none =>
              simp [aliased] at resolves
          | some binding =>
              obtain ⟨isAlias, rfl⟩ :=
                Binding.key_eq_iff.mp (key_of_lookup aliased)
              obtain ⟨target, shape⟩ := eq_ofAlias_of_space isAlias
              rw [shape] at aliased bound
              obtain ⟨module, isBound, -⟩ :=
                coherent _ target ((mem_visible_iff_lookup distinct).mpr aliased)
              have found := (mem_visible_iff_lookup distinct).mp isBound
              cases bound.symm.trans found

end Scopes

/-- A registry of manifests and of the organisation module, as registrations can
build it. -/
structure Registry.OnlyBuiltin (registry : Registry) : Prop where
  registered : registry.Registered
  atHand :
    ∀ name module,
      (name, ModuleSource.atHand module) ∈ registry.entries →
      module = aragonModule

theorem Registry.onlyBuiltin_builtin : builtin.OnlyBuiltin where
  registered := builtin_registered
  atHand _ _ := atHand_builtin

theorem Registry.OnlyBuiltin.registerRemote
    {registry : Registry}
    (onlyBuiltin : registry.OnlyBuiltin)
    (name address : String) :
    (registry.registerRemote name address).OnlyBuiltin where
  registered := .registerRemote onlyBuiltin.registered name address
  atHand := by
    intro other module member
    rcases Keyed.mem_of_mem_put member with isAdded | isEarlier
    · cases isAdded
    · exact onlyBuiltin.atHand other module isEarlier

/-- The directory of a registry of manifests and of the organisation module. -/
def Directory.OnlyBuiltin (directory : Directory) : Prop :=
  ∃ registry : Registry,
    registry.OnlyBuiltin ∧ directory = registry.directory

theorem Registry.OnlyBuiltin.directory
    {registry : Registry}
    (onlyBuiltin : registry.OnlyBuiltin) :
    registry.directory.OnlyBuiltin :=
  ⟨registry, onlyBuiltin, rfl⟩

theorem Directory.OnlyBuiltin.namesModules
    {directory : Directory}
    (onlyBuiltin : directory.OnlyBuiltin) :
    directory.NamesModules := by
  obtain ⟨registry, onlyBuiltin, rfl⟩ := onlyBuiltin
  exact onlyBuiltin.registered.directory.namesModules

/-- A look-up gives the organisation module or the module of a manifest. -/
theorem Directory.OnlyBuiltin.source_of_lookup
    {directory : Directory}
    (onlyBuiltin : directory.OnlyBuiltin)
    {collaborators : Collaborators}
    {name : String}
    {module : Module}
    (found :
      (directory.lookup collaborators name).answer.content = .ok module) :
    module = aragonModule ∨
      ∃ manifest : Manifest, module = manifest.toModule name := by
  obtain ⟨registry, onlyBuiltin, rfl⟩ := onlyBuiltin
  rcases Registry.source_of_lookup found with isAtHand | isManifest
  · exact .inl (onlyBuiltin.atHand name module isAtHand)
  · exact .inr isManifest

/-- The scopes that a visit binds into: those of the command's block, if it has
one. -/
def Evaluator.opened
    (evaluator : Evaluator)
    (scopes : Scopes)
    (command : Script.Command) : Scopes :=
  if command.block.isSome then
    scopes.enter (evaluator.visit scopes command).outcome.key?
  else
    scopes

namespace Engine

/-- How far the walk of a pass has come behind the given events. -/
def walkBehind
    (engine : Engine)
    (session : Session)
    (text : String)
    (cursor : Position)
    (events : List Event) : Walk :=
  events.foldl (Walk.follow engine.evaluator cursor)
    (.start
      (engine.initialScopes.merge
        ((engine.loading session text).scopesBefore cursor.line)))

/-- The scopes that a pass makes on its way, one binding after another. -/
inductive PassesThrough
    (engine : Engine)
    (session : Session)
    (text : String)
    (cursor : Position) : Scopes → Prop where
  /-- The bindings of some of the loaded modules are being collected. -/
  | collecting
      (selected : LoadedModule → Bool)
      (bound : List Binding)
      (begins :
        bound <+:
          ((engine.loading session text).modules.filter selected).flatMap
            LoadedModule.bindings) :
      PassesThrough engine session text cursor (Scopes.root.bindAll bound)
  /-- What was loaded above the cursor is being put beside the standard module. -/
  | merging
      (bound : List Binding)
      (begins :
        bound <+:
          ((engine.loading session text).scopesBefore cursor.line).bindings) :
      PassesThrough engine session text cursor
        (engine.initialScopes.bindAll bound)
  /-- The walk has come behind some of its events. -/
  | walking
      (events : List Event)
      (begins : events <+: Script.traceAll (Script.parse text).commands) :
      PassesThrough engine session text cursor
        (engine.walkBehind session text cursor events).scopes
  /-- What a command binds is being put where the command or its block stands. -/
  | visiting
      (events : List Event)
      (command : Script.Command)
      (begins :
        events ++ [.visit command] <+:
          Script.traceAll (Script.parse text).commands)
      (going : (engine.walkBehind session text cursor events).arrived = false)
      (above : isAbove command cursor = true)
      (bound : List Binding)
      (isBound :
        bound <+:
          (engine.evaluator.visit
            (engine.walkBehind session text cursor events).scopes
            command).outcome.bindings) :
      PassesThrough engine session text cursor
        ((engine.evaluator.opened
            (engine.walkBehind session text cursor events).scopes
            command).bindAll bound)

variable {engine : Engine} {session : Session} {text : String}
  {cursor : Position} {scopes : Scopes}

/-- The modules of a pass are the organisation module and those of manifests, each
under its own name. -/
theorem isProper_of_mem_loading
    (onlyBuiltin : engine.registry.OnlyBuiltin)
    (reached : engine.Reaches session)
    {loaded : LoadedModule}
    (isLoaded : loaded ∈ (engine.loading session text).modules) :
    loaded.IsProper := by
  have found :=
    Loader.lookup_of_trusts
      (Session.trusts_cached (reached.backed onlyBuiltin.namesModules) _) isLoaded
  refine ⟨Loader.name_lookup onlyBuiltin.namesModules found, ?_⟩
  rcases onlyBuiltin.source_of_lookup (Loader.lookup_registry found) with
    isBuiltin | ⟨manifest, isManifest⟩
  · rw [isBuiltin]
    exact aragonModule_bindsVariables
  · rw [isManifest]
    exact manifest.bindsVariables_toModule _

theorem keysApart_filter_loading (selected : LoadedModule → Bool) :
    Loading.KeysApart
      ((engine.loading session text).modules.filter selected) :=
  Loader.keysApart_load.sublist List.filter_sublist

theorem isProper_of_mem_filter
    (onlyBuiltin : engine.registry.OnlyBuiltin)
    (reached : engine.Reaches session)
    (selected : LoadedModule → Bool) :
    ∀ loaded ∈ (engine.loading session text).modules.filter selected,
      loaded.IsProper := by
  intro loaded isSelected
  exact isProper_of_mem_loading onlyBuiltin reached (List.mem_filter.mp isSelected).1

theorem hasRootedLoads_merging
    (onlyBuiltin : engine.registry.OnlyBuiltin)
    (reached : engine.Reaches session)
    {bound : List Binding}
    (begins :
      bound <+:
        ((engine.loading session text).scopesBefore cursor.line).bindings) :
    (engine.initialScopes.bindAll bound).HasRootedLoads := by
  rw [Loading.scopesBefore,
    Loading.bindings_scopesOf (keysApart_filter_loading _)] at begins
  have loads :=
    Loading.areLoads_standard (keysApart_filter_loading _)
      (isProper_of_mem_filter onlyBuiltin reached _) begins engine.registry.names
  rw [← engine.bindings_initialScopes] at loads
  have built : engine.initialScopes.IsBuilt := .bind .root _
  exact ⟨_, Scopes.rooted_bindAll built rfl loads, loads⟩

theorem hasRootedLoads_walkBehind
    (onlyBuiltin : engine.registry.OnlyBuiltin)
    (reached : engine.Reaches session)
    (events : List Event) :
    (engine.walkBehind session text cursor events).scopes.HasRootedLoads := by
  have merged :
      (engine.initialScopes.merge
        ((engine.loading session text).scopesBefore
          cursor.line)).HasRootedLoads :=
    hasRootedLoads_merging onlyBuiltin reached (List.prefix_refl _)
  obtain ⟨fixed, rooted, loads⟩ := merged
  exact ⟨fixed, Walk.rooted_of_start loads.bindVariables rooted events, loads⟩

/-- The loads of a pass stand in the root frame all the way. -/
theorem PassesThrough.hasRootedLoads
    (onlyBuiltin : engine.registry.OnlyBuiltin)
    (reached : engine.Reaches session)
    (passes : engine.PassesThrough session text cursor scopes) :
    scopes.HasRootedLoads := by
  cases passes with
  | collecting selected bound begins =>
      have loads :=
        Loading.areLoads_of_prefix (keysApart_filter_loading selected)
          (isProper_of_mem_filter onlyBuiltin reached selected) begins
      exact ⟨bound, Scopes.rooted_bindAll .root rfl loads, loads⟩
  | merging bound begins =>
      exact hasRootedLoads_merging onlyBuiltin reached begins
  | walking events begins =>
      exact hasRootedLoads_walkBehind onlyBuiltin reached events
  | visiting events command begins going above bound isBound =>
      obtain ⟨fixed, rooted, loads⟩ :=
        hasRootedLoads_walkBehind onlyBuiltin reached events
      have onlyVariables :
          ∀ binding ∈ bound, Binding.space binding = .variable :=
        fun _ member =>
          Evaluator.space_of_mem_visit (rooted.allModules loads.bindVariables)
            (isBound.subset member)
      have opened :
          (engine.evaluator.opened
            (engine.walkBehind session text cursor events).scopes
            command).Rooted fixed := by
        unfold Evaluator.opened
        split
        · exact rooted.enter _
        · exact rooted
      exact ⟨fixed, opened.bindAll onlyVariables, loads⟩

/-- Every command is resolved in scopes that the pass goes through. -/
theorem passesThrough_of_mem_visits
    {visit : Visit}
    (visited : visit ∈ engine.visits session text cursor) :
    ∃ scopes,
      engine.PassesThrough session text cursor scopes ∧
        visit = engine.evaluator.visit scopes visit.command := by
  obtain ⟨events, begins, isVisit⟩ :=
    Evaluator.visit_behind_of_mem_walk visited
  exact ⟨_, .walking events begins, isVisit⟩

/-- A pass walks behind all events of its text. -/
theorem journey_eq :
    let walk :=
      engine.walkBehind session text cursor
        (Script.traceAll (Script.parse text).commands)
    engine.journey (engine.loading session text) (Script.parse text).commands
        cursor =
      ⟨walk.scopes, walk.visits.reverse⟩ :=
  Evaluator.walk_eq_trace _ _ _ _

/-- Suggestions are made in the scopes that the pass goes through last. -/
theorem passesThrough_journey :
    engine.PassesThrough session text cursor
      (engine.journey (engine.loading session text)
        (Script.parse text).commands cursor).scopes := by
  rw [journey_eq]
  exact .walking _ (List.prefix_refl _)

end Engine

/-- A visit whose command has no module says what its resolution says. -/
theorem Evaluator.resolve_of_failure?
    {evaluator : Evaluator}
    {scopes : Scopes}
    {command : Script.Command}
    {error : ResolutionError}
    (fails :
      (evaluator.visit scopes command).outcome.failure? =
        some (.resolution error)) :
    scopes.resolve command.qualifier command.name = .error error := by
  unfold visit at fails
  split at fails
  · cases fails
  · cases resolves : scopes.resolve command.qualifier command.name with
    | error own =>
        simp only [resolves] at fails
        cases fails
        rfl
    | ok resolved =>
        simp only [resolves] at fails
        split at fails
        · cases fails
        · split at fails <;> cases fails

/-- What goes wrong in loading is reported as that. -/
theorem Loader.failed_of_mem_failures
    {loader : Loader}
    {cached : List (String × Module)}
    {requests : List LoadRequest}
    {failure : CommandFailure}
    (member : failure ∈ (loader.load cached requests).failures) :
    ∃ request error, failure = LoadRequest.failed request error := by
  rcases List.mem_append.mp member with isRejected | isFailed
  · rw [Admission.rejected_ofRequests] at isRejected
    obtain ⟨judged, -, isRejection⟩ := List.mem_filterMap.mp isRejected
    obtain ⟨error, -, rfl⟩ := Option.map_eq_some_iff.mp isRejection
    exact ⟨judged.request, error, rfl⟩
  · obtain ⟨request, -, fails⟩ := List.mem_filterMap.mp isFailed
    unfold failure? at fails
    split at fails
    · cases fails
    · rename_i error supplied
      exact ⟨request, error, (Option.some.inj fails).symm⟩

namespace Engine

end Engine

end ScriptCompletion
