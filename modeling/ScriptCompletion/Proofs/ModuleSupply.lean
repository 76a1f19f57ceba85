import ScriptCompletion.Loading
import ScriptCompletion.Proofs.BoundModules

namespace ScriptCompletion

/-!
# Where the modules of a script come from

A registry gives every module under the module's own name.  A list of cached
modules that the look-ups would give again may therefore be left out: the same
requests are met with the same modules and fail for the same reasons.
-/

namespace Registry

/-- The registries that can be built by registering modules and addresses. -/
inductive Registered : Registry → Prop where
  | empty :
      Registered .empty
  | register
      {registry : Registry}
      (earlier : Registered registry)
      (module : Module) :
      Registered (registry.register module)
  | registerRemote
      {registry : Registry}
      (earlier : Registered registry)
      (name address : String) :
      Registered (registry.registerRemote name address)

theorem builtin_registered : builtin.Registered :=
  .register .empty aragonModule

/-- Modules at hand are registered under their own names. -/
theorem Registered.name_atHand
    {registry : Registry}
    (registered : registry.Registered)
    {name : String}
    {module : Module}
    (member : (name, ModuleSource.atHand module) ∈ registry.entries) :
    module.name = name := by
  induction registered with
  | empty =>
      simp [Registry.empty] at member
  | register earlier added inductionHypothesis =>
      rcases Keyed.mem_of_mem_put member with isAdded | isEarlier
      · cases isAdded
        rfl
      · exact inductionHypothesis isEarlier
  | registerRemote earlier remoteName address inductionHypothesis =>
      rcases Keyed.mem_of_mem_put member with isAdded | isEarlier
      · cases isAdded
      · exact inductionHypothesis isEarlier

/-- The module that is always at hand. -/
theorem atHand_builtin
    {name : String}
    {module : Module}
    (member : (name, ModuleSource.atHand module) ∈ builtin.entries) :
    module = aragonModule := by
  simp only [builtin, register, add, empty, Keyed.put, List.mem_singleton,
    Prod.mk.injEq, ModuleSource.atHand.injEq] at member
  exact member.2

end Registry

/-- What holds of a new module, and is kept by commands without evaluators and
by helpers, holds of the module of a manifest. -/
theorem Manifest.toModule_induction
    (Holds : Module → Prop)
    {name : String}
    (named : Holds (.named name))
    (keptByCommand :
      ∀ module commandName description,
        Holds module →
        Holds (module.withCommand (.plain commandName description)))
    (keptByHelper :
      ∀ module helper,
        Holds module →
        Holds (module.withHelper helper))
    (manifest : Manifest) :
    Holds (manifest.toModule name) := by
  unfold toModule
  refine List.foldlRecOn manifest.helpers _ ?_ ?_
  · refine List.foldlRecOn manifest.commands _ named ?_
    intro module holds entry _
    exact keptByCommand module entry.name entry.description holds
  · intro module holds entry _
    exact keptByHelper module ⟨entry.name, entry.description⟩ holds

/-- A manifest describes a module of the name that was asked for. -/
theorem Manifest.name_toModule
    (manifest : Manifest)
    (name : String) :
    (manifest.toModule name).name = name :=
  toModule_induction
    (fun module => module.name = name)
    rfl
    (fun _ _ _ sameName => sameName)
    (fun _ _ sameName => sameName)
    manifest

/-- The commands of a manifest have no evaluators. -/
theorem Manifest.evaluator_toModule
    (manifest : Manifest)
    (name : String) :
    ∀ entry ∈ (manifest.toModule name).commands, entry.evaluator = none := by
  refine toModule_induction
    (fun module => ∀ entry ∈ module.commands, entry.evaluator = none)
    ?_ ?_ ?_ manifest
  · intro entry member
    cases member
  · intro module commandName description plain entry member
    rcases Keyed.mem_of_mem_put member with isAdded | isPresent
    · subst entry
      rfl
    · exact plain entry isPresent
  · intro module helper plain
    exact plain

/-- A look-up that succeeds gives a module at hand, or that of a manifest. -/
theorem Registry.source_of_lookup
    {registry : Registry}
    {collaborators : Collaborators}
    {name : String}
    {module : Module}
    (found :
      (registry.lookup collaborators name).answer.content = .ok module) :
    (name, ModuleSource.atHand module) ∈ registry.entries ∨
      ∃ manifest : Manifest, module = manifest.toModule name := by
  unfold Registry.lookup at found
  cases source : registry.entries.lookup name with
  | none =>
      simp [source] at found
  | some entry =>
      obtain ⟨before, after, shape, -⟩ := List.lookup_eq_some_iff.mp source
      cases entry with
      | atHand present =>
          simp only [source, Except.ok.injEq] at found
          subst present
          exact .inl (by simp [shape])
      | remote address =>
          simp only [source] at found
          cases fetched : (collaborators.fetch address).content with
          | error error =>
              simp [fetched] at found
          | ok document =>
              simp only [fetched, readRemote] at found
              split at found
              · cases found
              · split at found
                · cases found
                · rename_i manifest isManifest
                  cases found
                  exact .inr ⟨manifest, rfl⟩

/-- A look-up that succeeds gives a module of the name that was asked for. -/
theorem Registry.name_lookup
    {registry : Registry}
    (registered : registry.Registered)
    {collaborators : Collaborators}
    {name : String}
    {module : Module}
    (found :
      (registry.lookup collaborators name).answer.content = .ok module) :
    module.name = name := by
  rcases source_of_lookup found with isAtHand | ⟨manifest, rfl⟩
  · exact registered.name_atHand isAtHand
  · exact manifest.name_toModule name

namespace Directory

/-- A name stands for a module of that name. -/
def NamesModules (directory : Directory) : Prop :=
  ∀ collaborators name module,
    (directory.lookup collaborators name).answer.content = .ok module →
    module.name = name

/-- The directory of a registry that registrations lead to. -/
def Registered (directory : Directory) : Prop :=
  ∃ registry : Registry,
    registry.Registered ∧ directory = registry.directory

theorem Registered.namesModules
    {directory : Directory}
    (registered : directory.Registered) :
    directory.NamesModules := by
  obtain ⟨registry, registered, rfl⟩ := registered
  intro collaborators name module found
  exact Registry.name_lookup registered found

end Directory

theorem Registry.Registered.directory
    {registry : Registry}
    (registered : registry.Registered) :
    registry.directory.Registered :=
  ⟨registry, registered, rfl⟩

namespace Loader

/-- The timeout never turns a failure into a module. -/
theorem lookup_registry
    {loader : Loader}
    {name : String}
    {module : Module}
    (found : (loader.lookup name).answer.content = .ok module) :
    (loader.registry.lookup loader.collaborators name).answer.content =
      .ok module := by
  simp only [lookup, Timed.within] at found
  split at found
  · cases found
  · exact found

/-- The module that a look-up gives, under the timeout too, has the name. -/
theorem name_lookup
    {loader : Loader}
    (namesModules : loader.registry.NamesModules)
    {name : String}
    {module : Module}
    (found : (loader.lookup name).answer.content = .ok module) :
    module.name = name :=
  namesModules _ _ _ (lookup_registry found)

/-- Looking a module up under its name would give it again. -/
def Gives
    (loader : Loader)
    (module : Module) : Prop :=
  (loader.lookup module.name).answer.content = .ok module

/-- A cache in which every name has the module that a look-up gives. -/
def Trusts
    (loader : Loader)
    (cached : List (String × Module)) : Prop :=
  ∀ name module,
    (name, module) ∈ cached →
    (loader.lookup name).answer.content = .ok module

/-- A trusted cache makes no difference to a request. -/
theorem supply_of_trusts
    {loader : Loader}
    {cached : List (String × Module)}
    (trusted : loader.Trusts cached)
    (request : LoadRequest) :
    loader.supply cached request = loader.supply [] request := by
  have withoutCache :
      loader.supply [] request =
        (loader.lookup request.name).answer.content :=
    rfl
  rw [withoutCache, supply]
  cases found : cached.lookup request.name with
  | none =>
      rfl
  | some module =>
      obtain ⟨before, after, shape, -⟩ := List.lookup_eq_some_iff.mp found
      exact (trusted request.name module (by simp [shape])).symm

/-- With a trusted cache the same modules are loaded. -/
theorem modules_load_of_trusts
    {loader : Loader}
    {cached : List (String × Module)}
    (trusted : loader.Trusts cached)
    (requests : List LoadRequest) :
    (loader.load cached requests).modules =
      (loader.load [] requests).modules := by
  have sameModule :
      loader.loaded? cached = loader.loaded? [] := by
    funext request
    simp only [loaded?, supply_of_trusts trusted]
  simp only [load, sameModule]

/-- With a trusted cache the same requests fail, for the same reasons. -/
theorem failures_load_of_trusts
    {loader : Loader}
    {cached : List (String × Module)}
    (trusted : loader.Trusts cached)
    (requests : List LoadRequest) :
    (loader.load cached requests).failures =
      (loader.load [] requests).failures := by
  have sameFailure :
      loader.failure? cached = loader.failure? [] := by
    funext request
    simp only [failure?, supply_of_trusts trusted]
  simp only [load, sameFailure]

theorem supply_of_loaded?
    {loader : Loader}
    {cached : List (String × Module)}
    {request : LoadRequest}
    {loaded : LoadedModule}
    (isLoaded : loader.loaded? cached request = some loaded) :
    loaded.request = request ∧
      loader.supply cached request = .ok loaded.module := by
  unfold loaded? at isLoaded
  cases found : loader.supply cached request with
  | error error =>
      simp [found] at isLoaded
  | ok module =>
      simp only [found, Option.some.injEq] at isLoaded
      subst loaded
      exact ⟨rfl, rfl⟩

/-- What is loaded was cached or looked up. -/
theorem mem_cached_or_lookup
    {loader : Loader}
    {cached : List (String × Module)}
    {requests : List LoadRequest}
    {loaded : LoadedModule}
    (member : loaded ∈ (loader.load cached requests).modules) :
    (loaded.request.name, loaded.module) ∈ cached ∨
      (loader.lookup loaded.request.name).answer.content = .ok loaded.module := by
  obtain ⟨request, -, isLoaded⟩ := List.mem_filterMap.mp member
  obtain ⟨rfl, supplied⟩ := supply_of_loaded? isLoaded
  unfold supply at supplied
  split at supplied
  · rename_i module found
    obtain ⟨before, after, shape, -⟩ := List.lookup_eq_some_iff.mp found
    cases supplied
    exact .inl (by simp [shape])
  · exact .inr supplied

/-- Without a cache, only what the look-ups give is loaded. -/
theorem lookup_of_mem_modules
    {loader : Loader}
    {requests : List LoadRequest}
    {loaded : LoadedModule}
    (member : loaded ∈ (loader.load [] requests).modules) :
    (loader.lookup loaded.request.name).answer.content = .ok loaded.module := by
  rcases mem_cached_or_lookup member with impossible | looked
  · cases impossible
  · exact looked

/-- With a trusted cache too, only what the look-ups give is loaded. -/
theorem lookup_of_trusts
    {loader : Loader}
    {cached : List (String × Module)}
    (trusted : loader.Trusts cached)
    {requests : List LoadRequest}
    {loaded : LoadedModule}
    (member : loaded ∈ (loader.load cached requests).modules) :
    (loader.lookup loaded.request.name).answer.content = .ok loaded.module := by
  rw [modules_load_of_trusts trusted] at member
  exact lookup_of_mem_modules member

/-- What is loaded without a cache would be given again under its name. -/
theorem gives_of_mem_modules
    {loader : Loader}
    (namesModules : loader.registry.NamesModules)
    {requests : List LoadRequest}
    {loaded : LoadedModule}
    (member : loaded ∈ (loader.load [] requests).modules) :
    loader.Gives loaded.module := by
  have looked := lookup_of_mem_modules member
  unfold Gives
  rw [name_lookup namesModules looked]
  exact looked

end Loader

/-- The modules that loaded modules bind are the ones that were loaded. -/
theorem LoadedModule.module_of_mem_bindings
    {loaded : LoadedModule}
    {binding : Binding}
    {module : Module}
    (member : binding ∈ loaded.bindings)
    (isModule : Binding.module? binding = some module) :
    module = loaded.module := by
  have fromModule
      (same : binding = .ofModule loaded.request.key loaded.module) :
      module = loaded.module := by
    subst binding
    exact (Option.some.inj isModule).symm
  unfold bindings at member
  cases aliased : loaded.request.aliasName with
  | none =>
      simp only [aliased, List.mem_singleton] at member
      exact fromModule member
  | some aliasName =>
      simp only [aliased, List.mem_cons, List.not_mem_nil,
        or_false] at member
      rcases member with isOwn | isAlias
      · exact fromModule isOwn
      · subst binding
        cases isModule

/-- Scopes made of loaded modules hold no other modules. -/
theorem Loading.allModules_scopesOf
    {Property : Module → Prop}
    {modules : List LoadedModule}
    (holds : ∀ loaded ∈ modules, Property loaded.module) :
    AllModules Property (Loading.scopesOf modules).bindings := by
  refine Scopes.allModules_bindAll Scopes.allModules_root ?_
  intro binding member module isModule
  obtain ⟨loaded, isLoaded, inBindings⟩ := List.mem_flatMap.mp member
  rw [LoadedModule.module_of_mem_bindings inBindings isModule]
  exact holds loaded isLoaded

end ScriptCompletion
