import ScriptCompletion.Resolution

namespace ScriptCompletion

/-!
# Properties of all modules in scope

A property that holds of every module that is ever bound holds of every module
that a name can stand for.
-/

/-- Every module among the bindings has the property. -/
def AllModules
    (Property : Module → Prop)
    (bindings : List Binding) : Prop :=
  ∀ binding ∈ bindings,
    ∀ module,
      Binding.module? binding = some module →
      Property module

namespace AllModules

variable {Property : Module → Prop}

/-- Fewer bindings hold no other modules. -/
theorem mono
    {fewer more : List Binding}
    (holds : AllModules Property more)
    (subset : ∀ binding ∈ fewer, binding ∈ more) :
    AllModules Property fewer :=
  fun binding member => holds binding (subset binding member)

/-- Putting bindings among others keeps the property. -/
theorem putAll
    {Key : Type}
    [DecidableEq Key]
    {key : Binding → Key}
    {items added : List Binding}
    (present : AllModules Property items)
    (new : AllModules Property added) :
    AllModules Property (Keyed.putAll key items added) := by
  intro binding member
  rcases Keyed.mem_of_mem_putAll member with isPresent | isNew
  · exact present binding isPresent
  · exact new binding isNew

end AllModules

namespace Scopes

variable {Property : Module → Prop}

theorem allModules_root :
    AllModules Property root.bindings := by
  intro binding member
  simp [bindings, frames, root, Frame.empty] at member

/-- Adding bindings keeps the property if they have it. -/
theorem allModules_bindAll
    {scopes : Scopes}
    {added : List Binding}
    (present : AllModules Property scopes.bindings)
    (new : AllModules Property added) :
    AllModules Property (scopes.bindAll added).bindings := by
  intro binding member
  rcases mem_bindings_bindAll member with isPresent | isNew
  · exact present binding isPresent
  · exact new binding isNew

/-- What can be seen has the property of everything that is bound. -/
theorem allModules_visible
    {scopes : Scopes}
    (holds : AllModules Property scopes.bindings)
    (space : Space) :
    AllModules Property (scopes.visible space) :=
  holds.mono fun _ member => mem_bindings_of_mem_visible member

/-- A new scope binds nothing. -/
theorem bindings_enter
    (scopes : Scopes)
    (context : Option String) :
    (scopes.enter context).bindings = scopes.bindings := by
  simp [bindings, enter, frames, Frame.empty]

/-- Leaving a scope brings in nothing. -/
theorem mem_bindings_of_exit
    {scopes outside : Scopes}
    (left : scopes.exit = .ok outside)
    {binding : Binding}
    (member : binding ∈ outside.bindings) :
    binding ∈ scopes.bindings := by
  unfold exit at left
  cases outer : scopes.outer with
  | nil =>
      simp [outer] at left
  | cons frame rest =>
      simp only [outer, Except.ok.injEq] at left
      subst outside
      simp only [bindings, frames, outer, List.reverse_cons,
        List.flatMap_append, List.mem_append] at member ⊢
      exact .inl member

theorem allModules_enter
    {scopes : Scopes}
    (holds : AllModules Property scopes.bindings)
    (context : Option String) :
    AllModules Property (scopes.enter context).bindings := by
  rw [bindings_enter]
  exact holds

theorem allModules_exit
    {scopes outside : Scopes}
    (holds : AllModules Property scopes.bindings)
    (left : scopes.exit = .ok outside) :
    AllModules Property outside.bindings :=
  holds.mono fun _ member => mem_bindings_of_exit left member

/-- A name that is looked up stands for something that is bound. -/
theorem mem_bindings_of_lookup
    {scopes : Scopes}
    {space : Space}
    {name : String}
    {binding : Binding}
    (found : scopes.lookup space name = some binding) :
    binding ∈ scopes.bindings := by
  obtain ⟨frame, isFrame, inFrame⟩ := List.exists_of_findSome?_eq_some found
  have member : binding ∈ frame.bindings :=
    List.mem_of_find?_eq_some inFrame
  exact List.mem_flatMap.mpr ⟨frame, by simpa using isFrame, member⟩

end Scopes

/-- A command that was found with its module, which has the property. -/
def ResolvedCommand.Has
    (Property : Module → Prop)
    (resolved : ResolvedCommand) : Prop :=
  Property resolved.module ∧ resolved.command ∈ resolved.module.commands

theorem ResolvedCommand.has_of_ofBinding?
    {Property : Module → Prop}
    {bindings : List Binding}
    (holds : AllModules Property bindings)
    {binding : Binding}
    (member : binding ∈ bindings)
    {name : String}
    {resolved : ResolvedCommand}
    (found : ofBinding? binding name = some resolved) :
    resolved.Has Property := by
  simp only [ofBinding?, Option.bind_eq_bind, Option.bind_eq_some_iff,
    Option.pure_def, Option.some.injEq] at found
  obtain ⟨module, isModule, command, isCommand, rfl⟩ := found
  exact ⟨holds binding member module isModule,
    List.mem_of_find?_eq_some isCommand⟩

namespace Scopes

variable {Property : Module → Prop}

theorem has_of_commandUnder?
    {scopes : Scopes}
    (holds : AllModules Property scopes.bindings)
    {key name : String}
    {resolved : ResolvedCommand}
    (found : scopes.commandUnder? key name = some resolved) :
    resolved.Has Property := by
  simp only [commandUnder?, Option.bind_eq_bind,
    Option.bind_eq_some_iff] at found
  obtain ⟨binding, isBound, inBinding⟩ := found
  exact ResolvedCommand.has_of_ofBinding? holds
    (mem_bindings_of_lookup isBound) inBinding

theorem has_of_mem_unaliasedCommands
    {scopes : Scopes}
    (holds : AllModules Property scopes.bindings)
    {name : String}
    {resolved : ResolvedCommand}
    (member : resolved ∈ scopes.unaliasedCommands name) :
    resolved.Has Property := by
  obtain ⟨binding, isVisible, inBinding⟩ := List.mem_filterMap.mp member
  exact ResolvedCommand.has_of_ofBinding? (allModules_visible holds .module)
    (List.mem_filter.mp isVisible).1 inBinding

/-- A command resolves to one of a module in scope. -/
theorem has_of_resolve
    {scopes : Scopes}
    (holds : AllModules Property scopes.bindings)
    {qualifier : Option String}
    {name : String}
    {resolved : ResolvedCommand}
    (found : scopes.resolve qualifier name = .ok resolved) :
    resolved.Has Property := by
  cases qualifier with
  | some qualifier =>
      simp only [resolve, resolveQualified] at found
      cases bound : scopes.lookup .module qualifier with
      | none =>
          simp only [bound] at found
          split at found <;> cases found
      | some binding =>
          simp only [bound] at found
          cases inBinding : ResolvedCommand.ofBinding? binding name with
          | none =>
              simp [inBinding] at found
          | some own =>
              simp only [inBinding, Except.ok.injEq] at found
              subst own
              exact ResolvedCommand.has_of_ofBinding? holds
                (mem_bindings_of_lookup bound) inBinding
  | none =>
      simp only [resolve, resolvePlain] at found
      split at found
      · rename_i own preferred
        cases found
        rcases Option.or_eq_some_iff.mp preferred with
          inContext | ⟨-, isStandard⟩
        · obtain ⟨key, -, isUnder⟩ := Option.bind_eq_some_iff.mp inContext
          exact has_of_commandUnder? holds isUnder
        · exact has_of_commandUnder? holds isStandard
      · split at found
        · cases found
        · rename_i own onlyOne
          cases found
          have member : resolved ∈ scopes.unaliasedCommands name := by
            simp [onlyOne]
          exact has_of_mem_unaliasedCommands holds member
        · cases found

end Scopes

end ScriptCompletion
