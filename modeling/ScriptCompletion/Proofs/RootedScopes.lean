import Mathlib.Data.List.Induction
import ScriptCompletion.Proofs.HeadingEvaluation
import ScriptCompletion.Proofs.VisibleBindings

namespace ScriptCompletion

open Script (Event)

/-!
# Modules and aliases stay in the root frame

The modules of a script and their aliases are bound in the root frame before the
first command is visited.  From then on evaluators bind what they like, at any depth.
If all they bind is variables, then no step of the walk adds, replaces or hides a
module or an alias: at every point these are the ones that the root frame had at the
start.  The evaluators of the modules that are always at hand are of this kind, and
those of manifests have no evaluators at all.
-/

/-- The evaluators of the module bind variables and nothing else. -/
def Module.BindsVariables (module : Module) : Prop :=
  ∀ entry ∈ module.commands,
    ∀ evaluation,
      entry.evaluator = some evaluation →
      ∀ request bindings,
        Evaluation.CanBind (evaluation request) bindings →
        ∀ binding ∈ bindings, Binding.space binding = .variable

theorem standardModule_bindsVariables (loadable : List String) :
    (standardModule loadable).BindsVariables := by
  intro entry offered evaluation isEvaluator request bindings canBind
  rw [Standard.evaluation_eq offered isEvaluator] at canBind
  obtain ⟨name, text, rfl⟩ := Standard.eq_ofVariable_of_setBindings canBind
  exact List.forall_mem_singleton.mpr rfl

theorem aragonModule_bindsVariables :
    aragonModule.BindsVariables := by
  intro entry offered evaluation isEvaluator request bindings canBind
  rw [Aragon.evaluation_eq offered isEvaluator] at canBind
  obtain ⟨name, text, rfl⟩ := Aragon.eq_ofVariable_of_connect canBind
  exact List.forall_mem_singleton.mpr rfl

theorem Manifest.bindsVariables_toModule
    (manifest : Manifest)
    (name : String) :
    (manifest.toModule name).BindsVariables := by
  intro entry offered evaluation isEvaluator
  rw [manifest.evaluator_toModule name entry offered] at isEvaluator
  cases isEvaluator

/-- A visit binds variables where all modules do. -/
theorem Evaluator.space_of_mem_visit
    {evaluator : Evaluator}
    {scopes : Scopes}
    (bindVariables : AllModules Module.BindsVariables scopes.bindings)
    {command : Script.Command}
    {binding : Binding}
    (isBound : binding ∈ (evaluator.visit scopes command).outcome.bindings) :
    Binding.space binding = .variable := by
  rcases canBind_of_visit bindVariables command with
    nothing | ⟨module, entry, evaluation, request, moduleBinds, offered,
      isEvaluator, canBind⟩
  · rw [nothing] at isBound
    cases isBound
  · exact moduleBinds entry offered evaluation isEvaluator request _ canBind
      binding isBound

/-- The modules and aliases of a frame. -/
def Frame.fixed (frame : Frame) : List Binding :=
  frame.bindings.filter fun binding => Binding.space binding != .variable

namespace Frame

theorem mem_fixed_iff
    {frame : Frame}
    {binding : Binding} :
    binding ∈ frame.fixed ↔
      binding ∈ frame.bindings ∧ Binding.space binding ≠ .variable := by
  simp [fixed]

/-- Among the modules and aliases of a frame a name stands for what it stands for in
the frame. -/
theorem find?_fixed
    (frame : Frame)
    {space : Space}
    (notVariable : space ≠ .variable)
    (name : String) :
    Keyed.find? Binding.key (space, name) frame.fixed =
      frame.find? space name := by
  rw [Keyed.find?, fixed, List.find?_filter]
  apply Keyed.find?_of_iff
  intro binding
  simp only [bne_iff_ne, ne_eq, beq_iff_eq, decide_eq_true_eq,
    Binding.key_eq_iff]
  constructor
  · exact And.right
  · rintro ⟨rfl, rfl⟩
    exact ⟨notVariable, rfl, rfl⟩

/-- Variables leave the modules and aliases of a frame alone. -/
theorem fixed_bindAll
    (frame : Frame)
    {added : List Binding}
    (onlyVariables : ∀ binding ∈ added, Binding.space binding = .variable) :
    (frame.bindAll added).fixed = frame.fixed := by
  let keep : Space × String → Bool := fun key => key.1 != .variable
  have dropped : ∀ binding ∈ added, keep (Binding.key binding) = false := by
    intro binding member
    have isVariable : (Binding.key binding).1 = .variable :=
      onlyVariables binding member
    simp [keep, isVariable]
  exact Keyed.filter_putAll dropped frame.bindings

end Frame

namespace Scopes

/-- Seen through a view, the root frame is as given and all other frames are empty. -/
def OnlyRootShows
    {View : Type}
    (view : Frame → View)
    (nothing root : View)
    (scopes : Scopes) : Prop :=
  scopes.frames.map view = List.replicate scopes.depth nothing ++ [root]

namespace OnlyRootShows

variable {View : Type} {view : Frame → View} {nothing root : View}
  {scopes : Scopes}

theorem enter
    (shows : scopes.OnlyRootShows view nothing root)
    (blank : ∀ context, view (.empty context) = nothing)
    (context : Option String) :
    (scopes.enter context).OnlyRootShows view nothing root := by
  have inside :
      (scopes.enter context).frames.map view =
        view (.empty context) :: scopes.frames.map view :=
    rfl
  rw [OnlyRootShows, inside, shows, blank, depth_enter, List.replicate_succ,
    List.cons_append]

theorem exit
    (shows : scopes.OnlyRootShows view nothing root)
    {outside : Scopes}
    (left : scopes.exit = .ok outside) :
    outside.OnlyRootShows view nothing root := by
  have around := frames_of_exit left
  have deeper : scopes.depth = outside.depth + 1 := by
    have sameLength := congrArg List.length around
    simpa [Scopes.frames, depth] using sameLength
  rw [OnlyRootShows, around, deeper, List.replicate_succ] at shows
  exact (List.cons.inj shows).2

theorem bindAll
    (shows : scopes.OnlyRootShows view nothing root)
    {added : List Binding}
    (unseen :
      view (scopes.innermost.bindAll added) = view scopes.innermost) :
    (scopes.bindAll added).OnlyRootShows view nothing root := by
  rw [OnlyRootShows, depth, outer_bindAll, frames_bindAll, List.map_cons, unseen]
  exact shows

/-- A view of the view is a view. -/
theorem map
    {Further : Type}
    (shows : scopes.OnlyRootShows view nothing root)
    (further : View → Further) :
    scopes.OnlyRootShows (fun frame => further (view frame)) (further nothing)
      (further root) := by
  have mapped := congrArg (List.map further) shows
  simpa [OnlyRootShows, Function.comp_def] using mapped

/-- A name that only the root frame has stands for what it stands for there. -/
theorem lookup
    {space : Space}
    {name : String}
    {found : Option Binding}
    (shows :
      scopes.OnlyRootShows (fun frame => frame.find? space name) none found) :
    scopes.lookup space name = found := by
  have inFrames :
      scopes.lookup space name =
        (scopes.frames.map fun frame => frame.find? space name).findSome? id := by
    rw [List.findSome?_map]
    rfl
  have nothing (depth : Nat) :
      (List.replicate depth (none : Option Binding)).findSome? id = none := by
    rw [List.findSome?_eq_none_iff]
    intro own member
    exact List.eq_of_mem_replicate member
  rw [inFrames, shows, List.findSome?_append, nothing, Option.none_or,
    List.findSome?_singleton, id]

end OnlyRootShows

/-- The given modules and aliases stand in the root frame, and no others stand
anywhere. -/
structure Rooted
    (fixed : List Binding)
    (scopes : Scopes) : Prop where
  built : scopes.IsBuilt
  frames :
    scopes.frames.map Frame.fixed = List.replicate scopes.depth [] ++ [fixed]

/-- A root frame without variables. -/
theorem rooted_of_outer
    {scopes : Scopes}
    (built : scopes.IsBuilt)
    (alone : scopes.outer = [])
    (noVariables :
      ∀ binding ∈ scopes.bindings, Binding.space binding ≠ .variable) :
    scopes.Rooted scopes.bindings := by
  rw [bindings_of_outer alone] at noVariables ⊢
  have allFixed : scopes.innermost.fixed = scopes.innermost.bindings := by
    rw [Frame.fixed, List.filter_eq_self]
    intro binding member
    simp [noVariables binding member]
  refine ⟨built, ?_⟩
  simp [Scopes.frames, depth, alone, allFixed]

namespace Rooted

variable {fixed : List Binding} {scopes : Scopes}

theorem enter
    (rooted : scopes.Rooted fixed)
    (context : Option String) :
    (scopes.enter context).Rooted fixed :=
  ⟨.enter rooted.built context,
    OnlyRootShows.enter rooted.frames (fun _ => rfl) context⟩

theorem exit
    (rooted : scopes.Rooted fixed)
    {outside : Scopes}
    (left : scopes.exit = .ok outside) :
    outside.Rooted fixed :=
  ⟨.exit rooted.built left, OnlyRootShows.exit rooted.frames left⟩

theorem bindAll
    (rooted : scopes.Rooted fixed)
    {added : List Binding}
    (onlyVariables : ∀ binding ∈ added, Binding.space binding = .variable) :
    (scopes.bindAll added).Rooted fixed :=
  ⟨.bindAll rooted.built added,
    OnlyRootShows.bindAll rooted.frames
      (scopes.innermost.fixed_bindAll onlyVariables)⟩

/-- Modules and aliases are looked up in the root frame. -/
theorem lookup
    (rooted : scopes.Rooted fixed)
    {space : Space}
    (notVariable : space ≠ .variable)
    (name : String) :
    scopes.lookup space name = Keyed.find? Binding.key (space, name) fixed := by
  have inFixed :
      scopes.OnlyRootShows
        (fun frame => Keyed.find? Binding.key (space, name) frame.fixed) none
        (Keyed.find? Binding.key (space, name) fixed) :=
    OnlyRootShows.map rooted.frames _
  simp only [Frame.find?_fixed _ notVariable name] at inFixed
  exact inFixed.lookup

/-- No module is bound but those of the root frame. -/
theorem allModules
    (rooted : scopes.Rooted fixed)
    {Property : Module → Prop}
    (holds : AllModules Property fixed) :
    AllModules Property scopes.bindings := by
  intro binding member module isModule
  obtain ⟨frame, isFrame, inFrame⟩ := List.mem_flatMap.mp member
  have notVariable : Binding.space binding ≠ .variable := by
    obtain ⟨name, value⟩ := binding
    intro isVariable
    cases value with
    | module descriptor =>
        cases isVariable
    | _ =>
        cases isModule
  have inFixed := Frame.mem_fixed_iff.mpr ⟨inFrame, notVariable⟩
  have isMapped : frame.fixed ∈ scopes.frames.map Frame.fixed :=
    List.mem_map_of_mem (List.mem_reverse.mp isFrame)
  rw [rooted.frames, List.mem_append, List.mem_singleton] at isMapped
  rcases isMapped with isInner | isRoot
  · rw [List.eq_of_mem_replicate isInner] at inFixed
    cases inFixed
  · rw [isRoot] at inFixed
    exact holds binding inFixed module isModule

end Rooted

end Scopes

namespace Walk

variable {evaluator : Evaluator} {cursor : Position} {fixed : List Binding}

/-- No step of the walk touches a module or an alias. -/
theorem rooted_follow
    (bindVariables : AllModules Module.BindsVariables fixed)
    {walk : Walk}
    (rooted : walk.scopes.Rooted fixed)
    (event : Event) :
    (walk.follow evaluator cursor event).scopes.Rooted fixed := by
  rcases follow_cases evaluator cursor walk event with
    ⟨sameScopes, -⟩ | ⟨command, -, bound, -⟩ | ⟨left, -⟩
  · rw [sameScopes]
    exact rooted
  · have onlyVariables :
        ∀ binding ∈ (evaluator.visit walk.scopes command).outcome.bindings,
          Binding.space binding = .variable :=
      fun _ isBound =>
        Evaluator.space_of_mem_visit (rooted.allModules bindVariables) isBound
    rw [bound]
    split
    · exact (rooted.enter _).bindAll onlyVariables
    · exact rooted.bindAll onlyVariables
  · exact rooted.exit left

theorem rooted_foldl_follow
    (bindVariables : AllModules Module.BindsVariables fixed)
    {walk : Walk}
    (rooted : walk.scopes.Rooted fixed)
    (events : List Event) :
    (events.foldl (follow evaluator cursor) walk).scopes.Rooted fixed := by
  induction events generalizing walk with
  | nil =>
      exact rooted
  | cons event rest inductionHypothesis =>
      exact inductionHypothesis (rooted_follow bindVariables rooted event)

/-- A walk leaves modules and aliases where they stood when it started. -/
theorem rooted_of_start
    (bindVariables : AllModules Module.BindsVariables fixed)
    {scopes : Scopes}
    (rooted : scopes.Rooted fixed)
    (events : List Event) :
    (events.foldl (follow evaluator cursor) (.start scopes)).scopes.Rooted
      fixed := by
  have starts : (Walk.start scopes).scopes.Rooted fixed := rooted
  exact rooted_foldl_follow bindVariables starts events

/-- A walk changes nothing of a view that none of its visits can be seen through. -/
theorem onlyRootShows_of_start
    {View : Type}
    {view : Frame → View}
    {nothing root : View}
    (blank : ∀ context, view (.empty context) = nothing)
    {scopes : Scopes}
    (shows : scopes.OnlyRootShows view nothing root)
    {events : List Event}
    (unseen :
      ∀ visit ∈ (events.foldl (follow evaluator cursor) (.start scopes)).visits,
        ∀ frame : Frame,
          view (frame.bindAll visit.outcome.bindings) = view frame) :
    (events.foldl (follow evaluator cursor) (.start scopes)).scopes.OnlyRootShows
      view nothing root := by
  induction events using List.reverseRecOn with
  | nil =>
      exact shows
  | append_singleton events event inductionHypothesis =>
      rw [List.foldl_append, List.foldl_cons, List.foldl_nil] at unseen ⊢
      rcases follow_cases evaluator cursor
          (events.foldl (follow evaluator cursor) (.start scopes)) event with
        ⟨sameScopes, sameVisits⟩ | ⟨command, -, bound, visited⟩ |
          ⟨left, sameVisits⟩
      · rw [sameVisits] at unseen
        rw [sameScopes]
        exact inductionHypothesis unseen
      · rw [visited, List.forall_mem_cons] at unseen
        have before := inductionHypothesis unseen.2
        rw [bound]
        split
        · exact (before.enter blank _).bindAll (unseen.1 _)
        · exact before.bindAll (unseen.1 _)
      · rw [sameVisits] at unseen
        exact (inductionHypothesis unseen).exit left

end Walk

end ScriptCompletion
