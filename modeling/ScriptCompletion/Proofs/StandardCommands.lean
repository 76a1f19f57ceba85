import ScriptCompletion.Proofs.AliasCoherence
import ScriptCompletion.Proofs.OfferedCommands

namespace ScriptCompletion

open Script (Event)

/-!
# Standard commands are known by their spelling

Modules are loaded before any name can be resolved, so a `load` is told by how it is
written: plain, or behind the name of the standard module.  Commands are excluded in
the same way.  Resolution comes to the same module, with one exception.  Inside of a
block the module of the block comes first, and takes a plain name if it has a command
of that name.  All this rests on the standard module standing under its name all the
way, which no load and no block can change, only what a command binds.
-/

theorem Script.Command.isStandard_iff
    {command : Script.Command}
    {name : String} :
    command.isStandard name = true ↔
      command.name = name ∧
        (command.qualifier = none ∨
          command.qualifier = some Script.standardName) := by
  unfold isStandard
  cases command.qualifier <;>
    simp

/-- Whether the command has bound a module under the name of the standard one. -/
def Visit.RebindsStandard (visit : Visit) : Prop :=
  (.module, Script.standardName) ∈ visit.outcome.bindings.map Binding.key

instance (visit : Visit) : Decidable visit.RebindsStandard :=
  inferInstanceAs (Decidable (_ ∈ _))

/-- Bindings of other names leave a name alone. -/
theorem Frame.find?_bindAll_of_not_mem
    (frame : Frame)
    {added : List Binding}
    {space : Space}
    {name : String}
    (others : (space, name) ∉ added.map Binding.key) :
    (frame.bindAll added).find? space name = frame.find? space name := by
  have nothing :
      Keyed.find? Binding.key (space, name) added.reverse = none := by
    refine List.find?_eq_none.mpr ?_
    intro binding member isWanted
    exact others
      (List.mem_map.mpr ⟨binding, List.mem_reverse.mp member, by simpa using isWanted⟩)
  rw [find?_bindAll, nothing, Option.none_or]

namespace Scopes

variable {scopes : Scopes} {command : Script.Command}

/-- The module of the enclosing block, if the command is plain and the module has one of
its name. -/
def claimant?
    (scopes : Scopes)
    (command : Script.Command) : Option String :=
  match command.qualifier with
  | none =>
      scopes.context?.filter fun key =>
        (scopes.commandUnder? key command.name).isSome
  | some _ =>
      none

/-- The command is found, and in the standard module unless the module of the enclosing
block claims it. -/
def ResolvesAsStandard
    (scopes : Scopes)
    (command : Script.Command) : Prop :=
  ∃ resolved,
    scopes.resolve command.qualifier command.name = .ok resolved ∧
      resolved.key = (scopes.claimant? command).getD Script.standardName

theorem key_of_commandUnder?
    {key name : String}
    {resolved : ResolvedCommand}
    (found : scopes.commandUnder? key name = some resolved) :
    resolved.key = key := by
  rw [commandUnder?_eq, Option.bind_eq_some_iff] at found
  obtain ⟨module, -, isFound⟩ := found
  have isEntry := (commandOf?_eq_some_iff.mp isFound).1
  exact (congrArg Prod.fst isEntry).symm

/-- A plain name is sought in the module of the enclosing block and then in the standard
one. -/
theorem resolvesAsStandard_of_plain
    (plain : command.qualifier = none)
    {standard : ResolvedCommand}
    (offered :
      scopes.commandUnder? Script.standardName command.name = some standard) :
    scopes.ResolvesAsStandard command := by
  simp only [ResolvesAsStandard, claimant?, plain, resolve, resolvePlain, offered]
  cases enclosing : scopes.context? with
  | none =>
      exact ⟨standard, rfl, key_of_commandUnder? offered⟩
  | some key =>
      cases claimed : scopes.commandUnder? key command.name with
      | none =>
          refine ⟨standard, by simp [claimed], ?_⟩
          simpa [Option.filter, claimed] using key_of_commandUnder? offered
      | some resolved =>
          refine ⟨resolved, by simp [claimed], ?_⟩
          simpa [Option.filter, claimed] using key_of_commandUnder? claimed

/-- Where the standard module stands under its name, its commands are found as they are
spelled. -/
theorem resolvesAsStandard_of_module?
    {standard : Module}
    (isBound : scopes.module? Script.standardName = some standard)
    {name : String}
    (spelled : command.isStandard name = true)
    (offered : (standard.command? name).isSome = true) :
    scopes.ResolvesAsStandard command := by
  obtain ⟨rfl, qualifiers⟩ := Script.Command.isStandard_iff.mp spelled
  obtain ⟨entry, found⟩ := Option.isSome_iff_exists.mp offered
  have underStandard :
      scopes.commandUnder? Script.standardName command.name =
        some ⟨Script.standardName, standard, entry⟩ := by
    rw [commandUnder?_eq, isBound, Option.bind_some]
    exact commandOf?_eq_some_iff.mpr ⟨rfl, found⟩
  rcases qualifiers with plain | qualified
  · exact resolvesAsStandard_of_plain plain underStandard
  · have resolves := resolve_some_eq_ok_iff.mpr underStandard
    rw [← qualified] at resolves
    exact ⟨_, resolves, by simp [claimant?, qualified]⟩

end Scopes

/-- The command of a request is a standard one. -/
theorem LoadRequest.isStandard_of_ofCommand?
    {command : Script.Command}
    {request : LoadRequest}
    (asks : ofCommand? command = some request) :
    command.isStandard "load" = true := by
  unfold ofCommand? at asks
  split at asks
  · assumption
  · cases asks

/-- What is spelled like an excluded command is excluded. -/
theorem Evaluator.outcome_visit_of_excluded
    {evaluator : Evaluator}
    {command : Script.Command}
    {name : String}
    (isExcluded : name ∈ evaluator.excluded)
    (spelled : command.isStandard name = true)
    (scopes : Scopes) :
    (evaluator.visit scopes command).outcome = .excluded := by
  have matched : evaluator.excluded.any command.isStandard = true :=
    List.any_eq_true.mpr ⟨name, isExcluded, spelled⟩
  simp [visit, matched]

/-- Loads beside the standard module bind nothing under its name. -/
theorem Loading.onlyRootShows_merge
    {modules : List LoadedModule}
    (apart : KeysApart modules)
    {scopes : Scopes}
    {standard : Module}
    (alone : scopes.outer = [])
    (standardAlone :
      scopes.bindings = [.ofModule Script.standardName standard]) :
    (scopes.merge (scopesOf modules)).OnlyRootShows
      (fun frame => frame.find? .module Script.standardName) none
      (some (.ofModule Script.standardName standard)) := by
  have stillAlone : (scopes.merge (scopesOf modules)).outer = [] :=
    (Scopes.outer_bindAll scopes _).trans alone
  have standardFirst := bindings_merge apart standardAlone
  generalize scopes.merge (scopesOf modules) = merged at stillAlone standardFirst ⊢
  have found :
      merged.innermost.find? .module Script.standardName =
        some (.ofModule Script.standardName standard) := by
    rw [Frame.find?, ← Scopes.bindings_of_outer stillAlone, standardFirst]
    have isWanted :
        Binding.key (.ofModule Script.standardName standard) =
          (.module, Script.standardName) :=
      rfl
    exact List.find?_cons_of_pos (by simp [isWanted])
  simp [Scopes.OnlyRootShows, Scopes.frames, Scopes.depth, stillAlone, found]

namespace Engine

variable {engine : Engine} {session : Session} {text : String}
  {cursor : Position}

/-- A walk starts where nothing but the standard module stands under its name. -/
theorem onlyRootShows_start :
    (engine.initialScopes.merge
        ((engine.loading session text).scopesBefore cursor.line)).OnlyRootShows
      (fun frame => frame.find? .module Script.standardName) none
      (some
        (.ofModule Script.standardName
          (standardModule engine.registry.names))) := by
  have apart :
      Loading.KeysApart
        ((engine.loading session text).modules.filter fun loaded =>
          loaded.request.isBefore cursor.line) :=
    keysApart_filter_loading _
  have alone : engine.initialScopes.outer = [] := rfl
  unfold Loading.scopesBefore
  exact Loading.onlyRootShows_merge apart alone engine.bindings_initialScopes

/-- As long as no command has bound anything under its name, the standard module stands
there. -/
theorem module?_walkBehind
    {events : List Event}
    (kept :
      ∀ visit ∈ (engine.walkBehind session text cursor events).visits,
        ¬ visit.RebindsStandard) :
    (engine.walkBehind session text cursor events).scopes.module?
        Script.standardName =
      some (standardModule engine.registry.names) := by
  have blank (context : Option String) :
      (Frame.empty context).find? .module Script.standardName = none :=
    rfl
  have unseen
      (visit : Visit)
      (visited : visit ∈ (engine.walkBehind session text cursor events).visits)
      (frame : Frame) :
      (frame.bindAll visit.outcome.bindings).find? .module Script.standardName =
        frame.find? .module Script.standardName :=
    frame.find?_bindAll_of_not_mem (kept visit visited)
  have found :
      (engine.walkBehind session text cursor events).scopes.lookup .module
          Script.standardName =
        some
          (.ofModule Script.standardName
            (standardModule engine.registry.names)) :=
    (Walk.onlyRootShows_of_start blank onlyRootShows_start unseen).lookup
  rw [Scopes.module?, found]
  rfl

/-- Modules of manifests and the organisation module bind no modules. -/
theorem not_rebindsStandard_of_onlyBuiltin
    (onlyBuiltin : engine.registry.OnlyBuiltin)
    (reached : engine.Reaches session)
    {visit : Visit}
    (visited : visit ∈ engine.visits session text cursor) :
    ¬ visit.RebindsStandard := by
  obtain ⟨scopes, passes, isVisit⟩ := passesThrough_of_mem_visits visited
  obtain ⟨fixed, rooted, loads⟩ := passes.hasRootedLoads onlyBuiltin reached
  intro rebinds
  obtain ⟨binding, isBound, isStandard⟩ := List.mem_map.mp rebinds
  rw [isVisit] at isBound
  have isVariable : Binding.space binding = .variable :=
    Evaluator.space_of_mem_visit (rooted.allModules loads.bindVariables) isBound
  cases isVariable.symm.trans (Binding.key_eq_iff.mp isStandard).1

/--
Spelling and resolution agree, but for the modules of blocks.  Take any engine, session,
text and cursor, and a visited command before which no command has bound a module under
the name of the standard one.  The command is visited where the walk stands behind the
visits before it.  If it is excluded for the name of a standard command, or if it asks
for a module, then it resolves there, and to the standard module unless it is plain and
the module of the enclosing block has a command of its name; then it resolves to that
one.  The same holds where suggestions are made, for all commands that are spelled like
standard ones.  Only modules that are registered with evaluators of their own can bind a
module: with the organisation module and manifests alone, no visit does.
-/
theorem spelling_agrees_with_resolution
    (engine : Engine)
    (session : Session)
    (text : String)
    (cursor : Position) :
    let standard := standardModule engine.registry.names
    let journey :=
      engine.journey (engine.loading session text)
        (Script.parse text).commands cursor
    (∀ earlier visit later,
      journey.visits = earlier ++ visit :: later →
      (∀ other ∈ earlier, ¬ other.RebindsStandard) →
      ∃ events,
        let walk := engine.walkBehind session text cursor events
        events ++ [.visit visit.command] <+:
            Script.traceAll (Script.parse text).commands ∧
          walk.visits.reverse = earlier ∧
          visit = engine.evaluator.visit walk.scopes visit.command ∧
          (∀ name ∈ engine.configuration.excludedCommands,
            visit.command.isStandard name = true →
            (standard.command? name).isSome = true →
            visit.outcome = .excluded ∧
              walk.scopes.ResolvesAsStandard visit.command) ∧
          ∀ request,
            LoadRequest.ofCommand? visit.command = some request →
            walk.scopes.ResolvesAsStandard visit.command) ∧
      ((∀ visit ∈ journey.visits, ¬ visit.RebindsStandard) →
        ∀ (command : Script.Command) (name : String),
          command.isStandard name = true →
          (standard.command? name).isSome = true →
          journey.scopes.ResolvesAsStandard command) ∧
      (engine.registry.OnlyBuiltin →
        engine.Reaches session →
        ∀ visit ∈ journey.visits, ¬ visit.RebindsStandard) := by
  intro standard journey
  refine ⟨?_, ?_, ?_⟩
  · intro earlier visit later visited kept
    obtain ⟨events, begins, sameEarlier, isVisit, -⟩ :=
      Evaluator.visit_of_walk_split visited
    -- The walk has made the visits before the command by then, and no others.
    have bound :
        (engine.walkBehind session text cursor events).scopes.module?
            Script.standardName =
          some standard := by
      apply module?_walkBehind
      intro other isEarlier
      exact kept other (sameEarlier ▸ List.mem_reverse.mpr isEarlier)
    refine ⟨events, begins, sameEarlier, isVisit, ?_, ?_⟩
    · intro name isExcluded spelled offered
      refine ⟨?_, Scopes.resolvesAsStandard_of_module? bound spelled offered⟩
      rw [isVisit]
      exact Evaluator.outcome_visit_of_excluded isExcluded spelled _
    · intro request asks
      exact Scopes.resolvesAsStandard_of_module? bound
        (LoadRequest.isStandard_of_ofCommand? asks) rfl
  · intro kept command name spelled offered
    have behindAll : journey = ⟨_, _⟩ := journey_eq
    rw [behindAll] at kept ⊢
    have bound :=
      module?_walkBehind fun visit visited =>
        kept visit (List.mem_reverse.mpr visited)
    exact Scopes.resolvesAsStandard_of_module? bound spelled offered
  · intro onlyBuiltin reached visit visited
    exact not_rebindsStandard_of_onlyBuiltin onlyBuiltin reached visited

/--
A manifest that has a `load` of its own.  Every load of the script resolves as the
standard one does; inside the block of the manifest's module that is so behind the name
of the standard module, while the plain one belongs to the block.
-/
theorem spelling_agrees_with_resolution_inside_block :
    let manifest := "[[commands]]\nname = \"open\"\n[[commands]]\nname = \"load\"\n"
    let engine : Engine :=
      { standalone with
        registry := (Registry.builtin.registerRemote "m" "ipfs:m").directory
        collaborators := .offline [] [("ipfs:m", manifest)] }
    let text := "load m\nopen (\n  std:load aragonos\n  load ghost\n  load "
    let cursor : Position := ⟨4, 7⟩
    let journey :=
      engine.journey (engine.loading .initial text)
        (Script.parse text).commands cursor
    let plain : Script.Command := ⟨none, "load", [], none, none, none⟩
    let qualified := { plain with qualifier := some Script.standardName }
    engine.registry.OnlyBuiltin ∧
      engine.Reaches .initial ∧
      journey.visits.map
          (fun visit => (visit.command.qualifiedName, visit.outcome.key?)) =
        [("load", none), ("open", some "m"), ("std:load", none), ("load", none)] ∧
      (∀ visit ∈ journey.visits,
        ∀ request,
          LoadRequest.ofCommand? visit.command = some request →
          ∃ events,
            (engine.walkBehind .initial text cursor
              events).scopes.ResolvesAsStandard visit.command) ∧
      (journey.scopes.claimant? plain = some "m" ∧
        journey.scopes.ResolvesAsStandard plain) ∧
      journey.scopes.claimant? qualified = none ∧
      journey.scopes.ResolvesAsStandard qualified := by
  intro manifest engine text cursor journey plain qualified
  have onlyBuiltin : engine.registry.OnlyBuiltin :=
    (Registry.onlyBuiltin_builtin.registerRemote "m" "ipfs:m").directory
  have reached := engine.reaches_initial
  obtain ⟨atVisits, atCursor, atAll⟩ :=
    spelling_agrees_with_resolution engine .initial text cursor
  have kept := atAll onlyBuiltin reached
  refine ⟨onlyBuiltin, reached, ?_, ?_, ⟨?_, ?_⟩, rfl, ?_⟩
  · decide +kernel
  · intro visit visited request asks
    obtain ⟨earlier, later, split⟩ := List.append_of_mem visited
    have keptEarlier : ∀ other ∈ earlier, ¬ other.RebindsStandard := by
      intro other isEarlier
      exact kept other (split ▸ List.mem_append_left _ isEarlier)
    obtain ⟨events, -, -, -, -, loads⟩ :=
      atVisits earlier visit later split keptEarlier
    exact ⟨events, loads request asks⟩
  · decide +kernel
  · exact atCursor kept plain "load" rfl rfl
  · exact atCursor kept qualified "load" rfl rfl

/--
Two commands that ask for a module and are excluded as the standard `load`, and do not
resolve to it where they are visited.  The module of the block around the first one has
a `load` of its own.  Before the second one, the evaluator of a registered module has
bound another module under the name of the standard one, so it does not resolve at all.
-/
theorem excluded_load_not_standard :
    let opening : Module :=
      ((Module.named "m").withCommand (.plain "open" "")).withCommand
        (.plain "load" "")
    let rebinding : Module :=
      (Module.named "m").withCommand
        (.evaluated "claim" "" fun _ =>
          .finished 0
            (.ok [Binding.ofModule Script.standardName (.named "other")]))
    let inBlock : Engine :=
      { standalone with
        registry := (Registry.empty.register opening).directory }
    let behindClaim : Engine :=
      { standalone with
        registry := (Registry.empty.register rebinding).directory }
    let cursor : Position := ⟨3, 0⟩
    let scopes (engine : Engine) (text : String) : Scopes :=
      (engine.walkBehind .initial text cursor
        ((Script.traceAll (Script.parse text).commands).take 2)).scopes
    let third (engine : Engine) (text : String) : Option (Bool × Option String) :=
      (engine.visits .initial text cursor)[2]?.map fun visit =>
        (visit.outcome matches .excluded &&
            (LoadRequest.ofCommand? visit.command).isSome,
          ((scopes engine text).resolve visit.command.qualifier
            visit.command.name).toOption.map ResolvedCommand.key)
    third inBlock "load m\nopen (\n  load m\n" = some (true, some "m") ∧
      third behindClaim "load m\nclaim\nload m\n" = some (true, none) := by
  decide +kernel

end Engine

end ScriptCompletion
