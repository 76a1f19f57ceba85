import ScriptCompletion.Proofs.KeyedLists
import ScriptCompletion.Scopes

namespace ScriptCompletion

/-!
# What can be seen

Whatever is done to scopes, no two bindings of a frame share a space and a name.
So the list of what can be seen holds no name twice, and each name with what it
stands for: the list and the lookup of names agree.
-/

namespace Binding

theorem key_eq_iff
    {binding : Binding}
    {space : Space}
    {name : String} :
    Binding.key binding = (space, name) ↔
      Binding.space binding = space ∧ binding.name = name :=
  Prod.mk.injEq .. ▸ Iff.rfl

/-- A variable is shown with its text, under its name. -/
theorem variableText?_view
    (binding : Binding)
    (name : String) :
    BindingOf.variableText? name binding.view =
      if Binding.key binding = (.variable, name) then
        Binding.text? binding
      else
        none := by
  obtain ⟨own, descriptor | target | text⟩ := binding
  · rfl
  · rfl
  · by_cases same : own = name
    · simp [BindingOf.variableText?, Binding.view, same, Binding.key,
        Binding.space, Value.space, Binding.text?, Value.text?]
    · simp [BindingOf.variableText?, Binding.view, same, Binding.key]

end Binding

/-- A frame to which bindings were added one after another. -/
def Frame.bindAll
    (frame : Frame)
    (bindings : List Binding) : Frame :=
  { frame with
    bindings := Keyed.putAll Binding.key frame.bindings bindings }

/-- A name stands for what was bound under it last, else for what it stood for. -/
theorem Frame.find?_bindAll
    (frame : Frame)
    (added : List Binding)
    (space : Space)
    (name : String) :
    (frame.bindAll added).find? space name =
      (Keyed.find? Binding.key (space, name) added.reverse).or
        (frame.find? space name) :=
  Keyed.find?_putAll Binding.key frame.bindings added (space, name)

namespace Scopes

/-- Where the root frame is alone, all bindings are its own. -/
theorem bindings_of_outer
    {scopes : Scopes}
    (alone : scopes.outer = []) :
    scopes.bindings = scopes.innermost.bindings := by
  simp [bindings, frames, alone]

/-- Bindings go into the innermost frame. -/
theorem bindAll_eq
    (scopes : Scopes)
    (bindings : List Binding) :
    scopes.bindAll bindings =
      ⟨scopes.innermost.bindAll bindings, scopes.outer⟩ := by
  induction bindings generalizing scopes with
  | nil =>
      rfl
  | cons binding rest inductionHypothesis =>
      exact inductionHypothesis (scopes.bind binding)

theorem frames_bindAll
    (scopes : Scopes)
    (bindings : List Binding) :
    (scopes.bindAll bindings).frames =
      scopes.innermost.bindAll bindings :: scopes.outer := by
  rw [bindAll_eq]
  rfl

theorem bindAll_append
    (scopes : Scopes)
    (first second : List Binding) :
    scopes.bindAll (first ++ second) =
      (scopes.bindAll first).bindAll second :=
  List.foldl_append

theorem eq_of_frames
    {first second : Scopes}
    (same : first.frames = second.frames) :
    first = second := by
  cases first
  cases second
  simpa [frames] using same

/-- Leaving a scope leads to the scopes around it. -/
theorem exit_of_frames
    {scopes outside : Scopes}
    {frame : Frame}
    (around : scopes.frames = frame :: outside.frames) :
    scopes.exit = .ok outside := by
  have entered : scopes = ⟨frame, outside.frames⟩ :=
    eq_of_frames around
  rw [entered]
  rfl

/-- The scopes that can be built from the root frame. -/
inductive IsBuilt : Scopes → Prop where
  | root :
      IsBuilt .root
  | enter {scopes : Scopes} :
      IsBuilt scopes →
      ∀ context, IsBuilt (scopes.enter context)
  | exit {scopes outside : Scopes} :
      IsBuilt scopes →
      scopes.exit = .ok outside →
      IsBuilt outside
  | bind {scopes : Scopes} :
      IsBuilt scopes →
      ∀ binding, IsBuilt (scopes.bind binding)
  | bindAll {scopes : Scopes} :
      IsBuilt scopes →
      ∀ bindings, IsBuilt (scopes.bindAll bindings)
  | merge {scopes other : Scopes} :
      IsBuilt scopes →
      IsBuilt other →
      IsBuilt (scopes.merge other)

/-- Whether no two bindings of a frame share a space and a name. -/
def AreDistinct (scopes : Scopes) : Prop :=
  ∀ frame ∈ scopes.frames, (frame.bindings.map Binding.key).Nodup

theorem AreDistinct.bind
    {scopes : Scopes}
    (distinct : scopes.AreDistinct)
    (binding : Binding) :
    (scopes.bind binding).AreDistinct := by
  simp only [AreDistinct, frames, List.forall_mem_cons] at distinct ⊢
  exact ⟨Keyed.nodup_put distinct.1 binding, distinct.2⟩

theorem AreDistinct.bindAll
    {scopes : Scopes}
    (distinct : scopes.AreDistinct)
    (bindings : List Binding) :
    (scopes.bindAll bindings).AreDistinct := by
  induction bindings generalizing scopes with
  | nil =>
      exact distinct
  | cons binding rest inductionHypothesis =>
      exact inductionHypothesis (distinct.bind binding)

/-- Leaving a scope takes its frame away. -/
theorem frames_of_exit
    {scopes outside : Scopes}
    (left : scopes.exit = .ok outside) :
    scopes.frames = scopes.innermost :: outside.frames := by
  unfold Scopes.exit at left
  cases outer : scopes.outer with
  | nil =>
      simp [outer] at left
  | cons frame rest =>
      simp only [outer, Except.ok.injEq] at left
      subst outside
      simp [frames, outer]

/-- What is done to scopes keeps the bindings of a frame apart. -/
theorem IsBuilt.areDistinct
    {scopes : Scopes}
    (built : scopes.IsBuilt) :
    scopes.AreDistinct := by
  induction built with
  | root =>
      simp [AreDistinct, frames, Scopes.root, Frame.empty]
  | enter _ context inductionHypothesis =>
      simp only [AreDistinct, frames, Scopes.enter, List.forall_mem_cons] at *
      exact ⟨List.nodup_nil, inductionHypothesis⟩
  | exit _ left inductionHypothesis =>
      rw [AreDistinct, frames_of_exit left, List.forall_mem_cons]
        at inductionHypothesis
      exact inductionHypothesis.2
  | bind _ binding inductionHypothesis =>
      exact inductionHypothesis.bind binding
  | bindAll _ bindings inductionHypothesis =>
      exact inductionHypothesis.bindAll bindings
  | merge _ _ inductionHypothesis _ =>
      exact inductionHypothesis.bindAll _

/-- In a frame it does not matter from which end a binding is sought. -/
theorem find?_reverse_of_distinct
    {frame : Frame}
    (distinct : (frame.bindings.map Binding.key).Nodup)
    (space : Space)
    (name : String) :
    Keyed.find? Binding.key (space, name) frame.bindings.reverse =
      frame.find? space name := by
  have reversed : (frame.bindings.reverse.map Binding.key).Nodup := by
    rw [List.map_reverse, List.nodup_reverse]
    exact distinct
  apply Option.ext
  intro binding
  rw [Frame.find?, Keyed.find?_eq_some_iff reversed,
    Keyed.find?_eq_some_iff distinct, List.mem_reverse]

/-- A name stands for what is bound last under it, frame after frame from the root
frame. -/
theorem find?_reverse_bindings
    {scopes : Scopes}
    (distinct : scopes.AreDistinct)
    (space : Space)
    (name : String) :
    Keyed.find? Binding.key (space, name) scopes.bindings.reverse =
      scopes.lookup space name := by
  have inFrames
      (frames : List Frame)
      (distinct :
        ∀ frame ∈ frames, (frame.bindings.map Binding.key).Nodup) :
      (frames.findSome? fun frame =>
          Keyed.find? Binding.key (space, name) frame.bindings.reverse) =
        frames.findSome? fun frame => frame.find? space name := by
    induction frames with
    | nil =>
        rfl
    | cons frame outer inductionHypothesis =>
        rw [List.forall_mem_cons] at distinct
        rw [List.findSome?_cons, List.findSome?_cons,
          find?_reverse_of_distinct distinct.1,
          inductionHypothesis distinct.2]
  calc
    Keyed.find? Binding.key (space, name) scopes.bindings.reverse
      = scopes.frames.findSome? fun frame =>
          Keyed.find? Binding.key (space, name) frame.bindings.reverse := by
        rw [bindings, List.reverse_flatMap, List.reverse_reverse]
        exact List.find?_flatMap
    _ = scopes.lookup space name :=
        inFrames scopes.frames distinct

/-- Among what can be seen, a name is found with what it stands for. -/
theorem find?_visible
    {scopes : Scopes}
    (distinct : scopes.AreDistinct)
    (space : Space)
    (name : String) :
    Keyed.find? BindingOf.name name (scopes.visible space) =
      scopes.lookup space name := by
  rw [← find?_reverse_bindings distinct, visible, Keyed.find?_putAll,
    ← List.filter_reverse, Keyed.find?_nil, Option.or_none, Keyed.find?,
    List.find?_filter]
  apply Keyed.find?_of_iff
  intro binding
  simp [Binding.key_eq_iff]

/-- No name can be seen twice. -/
theorem nodup_visibleNames
    (scopes : Scopes)
    (space : Space) :
    (scopes.visibleNames space).Nodup := by
  have nothing : (([] : List Binding).map BindingOf.name).Nodup :=
    List.nodup_nil
  exact Keyed.nodup_putAll nothing _

/-- Of one space no two bindings that can be seen have the same key. -/
theorem nodup_keys_visible
    (scopes : Scopes)
    (space : Space) :
    ((scopes.visible space).map Binding.key).Nodup := by
  apply List.Nodup.of_map Prod.snd
  rw [List.map_map]
  exact nodup_visibleNames scopes space

/-- What can be seen is what names stand for. -/
theorem mem_visible_iff_lookup
    {scopes : Scopes}
    (distinct : scopes.AreDistinct)
    {space : Space}
    {binding : Binding} :
    binding ∈ scopes.visible space ↔
      scopes.lookup space binding.name = some binding := by
  rw [← find?_visible distinct,
    Keyed.find?_eq_some_iff (nodup_visibleNames scopes space)]
  simp

/-- A name stands for a binding with this name in this space. -/
theorem key_of_lookup
    {scopes : Scopes}
    {space : Space}
    {name : String}
    {binding : Binding}
    (found : scopes.lookup space name = some binding) :
    Binding.key binding = (space, name) := by
  obtain ⟨frame, -, inFrame⟩ := List.exists_of_findSome?_eq_some found
  simpa using List.find?_some inFrame

/-- A binding in the space of modules binds a module. -/
theorem eq_ofModule_of_space
    {binding : Binding}
    (isModule : Binding.space binding = .module) :
    ∃ module, binding = .ofModule binding.name module := by
  obtain ⟨name, value⟩ := binding
  cases value with
  | module descriptor =>
      exact ⟨descriptor, rfl⟩
  | _ =>
      cases isModule

/-- A binding in the space of aliases binds an alias. -/
theorem eq_ofAlias_of_space
    {binding : Binding}
    (isAlias : Binding.space binding = .alias) :
    ∃ target, binding = .ofAlias binding.name target := by
  obtain ⟨name, descriptor | target | text⟩ := binding
  · cases isAlias
  · exact ⟨target, rfl⟩
  · cases isAlias

/-- A binding in the space of variables binds a variable. -/
theorem eq_ofVariable_of_space
    {binding : Binding}
    (isVariable : Binding.space binding = .variable) :
    ∃ text, binding = .ofVariable binding.name text := by
  obtain ⟨name, descriptor | target | text⟩ := binding
  · cases isVariable
  · cases isVariable
  · exact ⟨text, rfl⟩

/-- A variable has a text. -/
theorem exists_text?_of_key
    {binding : Binding}
    {name : String}
    (isVariable : Binding.key binding = (.variable, name)) :
    ∃ text, Binding.text? binding = some text := by
  obtain ⟨text, shape⟩ :=
    eq_ofVariable_of_space (Binding.key_eq_iff.mp isVariable).1
  exact ⟨text, shape ▸ rfl⟩

/-- What is bound in the space of modules is the module under its key. -/
theorem lookup_module
    (scopes : Scopes)
    (key : String) :
    scopes.lookup .module key =
      (scopes.module? key).map (Binding.ofModule key) := by
  unfold module?
  cases found : scopes.lookup .module key with
  | none =>
      rfl
  | some binding =>
      obtain ⟨isModule, isKey⟩ := Binding.key_eq_iff.mp (key_of_lookup found)
      obtain ⟨module, shape⟩ := eq_ofModule_of_space isModule
      rw [shape, isKey]
      rfl

/-- An alias has a target. -/
theorem isSome_aliasTarget?
    (scopes : Scopes)
    (name : String) :
    (scopes.aliasTarget? name).isSome = (scopes.lookup .alias name).isSome := by
  unfold aliasTarget?
  cases found : scopes.lookup .alias name with
  | none =>
      rfl
  | some binding =>
      obtain ⟨isAlias, -⟩ := Binding.key_eq_iff.mp (key_of_lookup found)
      obtain ⟨_, value⟩ := binding
      cases value with
      | module descriptor =>
          cases isAlias
      | _ =>
          rfl

end Scopes

/-- What is shown of the variables of a frame. -/
theorem Frame.variableText?_view
    (frame : Frame)
    (name : String) :
    frame.view.bindings.findSome? (BindingOf.variableText? name) =
      (frame.find? .variable name).bind Binding.text? := by
  simp only [Frame.view, Frame.find?, Keyed.find?, List.findSome?_map,
    Function.comp_def, Binding.variableText?_view]
  induction frame.bindings with
  | nil =>
      rfl
  | cons first rest inductionHypothesis =>
      rw [List.findSome?_cons, inductionHypothesis]
      by_cases isFirst : Binding.key first = (.variable, name)
      · obtain ⟨text, isText⟩ := Scopes.exists_text?_of_key isFirst
        rw [List.find?_cons_of_pos (by simp [isFirst])]
        simp [isFirst, isText]
      · rw [List.find?_cons_of_neg (by simpa using isFirst)]
        simp [isFirst]

/-- What evaluators are shown of the variables is what names stand for. -/
theorem Scopes.variableText?_view
    (scopes : Scopes)
    (name : String) :
    ScopesView.variableText? scopes.view name = scopes.variableText? name := by
  simp only [ScopesView.variableText?, Scopes.view, List.findSome?_map,
    Function.comp_def, Frame.variableText?_view, Scopes.variableText?,
    Scopes.lookup]
  induction scopes.frames with
  | nil =>
      rfl
  | cons first rest inductionHypothesis =>
      rw [List.findSome?_cons, List.findSome?_cons, inductionHypothesis]
      cases found : first.find? .variable name with
      | none =>
          rfl
      | some binding =>
          have isVariable : Binding.key binding = (.variable, name) := by
            simpa using List.find?_some found
          obtain ⟨text, isText⟩ := Scopes.exists_text?_of_key isVariable
          simp [isText]

end ScriptCompletion
