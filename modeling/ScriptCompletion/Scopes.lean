import ScriptCompletion.Module.Descriptor

namespace ScriptCompletion

/-!
# Scopes

Scopes are a stack of frames, of which the root frame is always there.  A name
is looked up from the innermost frame outwards, and a binding always goes into
the innermost frame.  A frame may name the module whose commands need no
qualifier inside it.
-/

/-- The bindings of one scope, in the order in which their names first came. -/
structure Frame where
  bindings : List Binding
  /-- The key of the module whose commands come first here. -/
  context : Option String

namespace Frame

/-- A frame without bindings. -/
def empty (context : Option String) : Frame where
  bindings := []
  context := context

/-- Add a binding; one of the same space and name is replaced where it stands. -/
def bind
    (frame : Frame)
    (binding : Binding) : Frame :=
  { frame with bindings := Keyed.put Binding.key binding frame.bindings }

/-- The binding of a name in a space. -/
def find?
    (frame : Frame)
    (space : Space)
    (name : String) : Option Binding :=
  Keyed.find? Binding.key (space, name) frame.bindings

end Frame

/-- What can be seen of the frame. -/
def Frame.view (frame : Frame) : FrameView where
  bindings := frame.bindings.map Binding.view
  context := frame.context

/-- The innermost frame and the frames around it, innermost first. -/
structure Scopes where
  innermost : Frame
  outer : List Frame

namespace Scopes

/-- The root frame alone, without bindings. -/
def root : Scopes where
  innermost := .empty none
  outer := []

/-- All frames, innermost first. -/
def frames (scopes : Scopes) : List Frame :=
  scopes.innermost :: scopes.outer

/-- What evaluators and candidates are shown. -/
def view (scopes : Scopes) : ScopesView :=
  scopes.frames.map Frame.view

/-- The number of frames around the innermost one. -/
def depth (scopes : Scopes) : Nat :=
  scopes.outer.length

/-- Open a scope, with or without a module of its own. -/
def enter
    (scopes : Scopes)
    (context : Option String) : Scopes where
  innermost := .empty context
  outer := scopes.frames

/-- Close the innermost scope; the root scope cannot be closed. -/
def exit (scopes : Scopes) : Except ScopeError Scopes :=
  match scopes.outer with
  | [] =>
      .error .exitRootScope
  | frame :: outer =>
      .ok ⟨frame, outer⟩

/-- Add a binding to the innermost scope. -/
def bind
    (scopes : Scopes)
    (binding : Binding) : Scopes :=
  { scopes with innermost := scopes.innermost.bind binding }

/-- Add bindings one after another. -/
def bindAll
    (scopes : Scopes)
    (bindings : List Binding) : Scopes :=
  bindings.foldl bind scopes

/-- All bindings of all frames, those of the root frame first. -/
def bindings (scopes : Scopes) : List Binding :=
  scopes.frames.reverse.flatMap Frame.bindings

/-- Add every binding of other scopes, outer ones first, so that what shadows
there also shadows here. -/
def merge
    (scopes : Scopes)
    (other : Scopes) : Scopes :=
  scopes.bindAll other.bindings

/-- The innermost binding of a name in a space. -/
def lookup
    (scopes : Scopes)
    (space : Space)
    (name : String) : Option Binding :=
  scopes.frames.findSome? fun frame => frame.find? space name

/-- The module under a key. -/
def module?
    (scopes : Scopes)
    (key : String) : Option Module :=
  (scopes.lookup .module key).bind Binding.module?

/-- The name of the module that an alias stands for. -/
def aliasTarget?
    (scopes : Scopes)
    (name : String) : Option String :=
  (scopes.lookup .alias name).bind Binding.text?

/-- The text of a variable. -/
def variableText?
    (scopes : Scopes)
    (name : String) : Option String :=
  (scopes.lookup .variable name).bind Binding.text?

/-- The module of the innermost frame that names one. -/
def context? (scopes : Scopes) : Option String :=
  scopes.frames.findSome? Frame.context

/-- The bindings of a space that can be seen, each name at the place of its
outermost binding and with the value of its innermost one. -/
def visible
    (scopes : Scopes)
    (space : Space) : List Binding :=
  Keyed.putAll BindingOf.name []
    (scopes.bindings.filter fun binding => Binding.space binding == space)

/-- The names of a space that can be seen. -/
def visibleNames
    (scopes : Scopes)
    (space : Space) : List String :=
  (scopes.visible space).map BindingOf.name

/-- The bindings of several spaces that can be seen, space after space. -/
def snapshot
    (scopes : Scopes)
    (spaces : List Space) : List Binding :=
  spaces.flatMap scopes.visible

/-- A new scope is one frame further in. -/
@[simp]
theorem depth_enter
    (scopes : Scopes)
    (context : Option String) :
    (scopes.enter context).depth = scopes.depth + 1 :=
  rfl

/-- Leaving a new scope gives back what was there before. -/
@[simp]
theorem exit_enter
    (scopes : Scopes)
    (context : Option String) :
    (scopes.enter context).exit = .ok scopes :=
  rfl

/-- Binding a name leaves the frames around the innermost one alone. -/
@[simp]
theorem outer_bindAll
    (scopes : Scopes)
    (bindings : List Binding) :
    (scopes.bindAll bindings).outer = scopes.outer := by
  induction bindings generalizing scopes with
  | nil =>
      rfl
  | cons binding rest inductionHypothesis =>
      exact inductionHypothesis (scopes.bind binding)

/-- A bound list of bindings and the old bindings are all that there is. -/
theorem mem_bindings_bindAll
    {scopes : Scopes}
    {added : List Binding}
    {binding : Binding}
    (member : binding ∈ (scopes.bindAll added).bindings) :
    binding ∈ scopes.bindings ∨ binding ∈ added := by
  induction added generalizing scopes with
  | nil =>
      exact .inl member
  | cons first rest inductionHypothesis =>
      rcases inductionHypothesis member with isOld | isLater
      · simp only [bindings, frames, bind, List.reverse_cons,
          List.flatMap_append, List.mem_append, List.flatMap_cons,
          List.flatMap_nil, List.append_nil] at isOld ⊢
        rcases isOld with inOuter | inInnermost
        · exact .inl (.inl inOuter)
        · rcases Keyed.mem_of_mem_put inInnermost with isFirst | isInnermost
          · exact .inr (by simp [isFirst])
          · exact .inl (.inr isInnermost)
      · exact .inr (by simp [isLater])

/-- What can be seen is bound. -/
theorem mem_bindings_of_mem_visible
    {scopes : Scopes}
    {space : Space}
    {binding : Binding}
    (member : binding ∈ scopes.visible space) :
    binding ∈ scopes.bindings := by
  rcases Keyed.mem_of_mem_putAll member with impossible | inSpace
  · cases impossible
  · exact (List.mem_filter.mp inSpace).1

end Scopes

end ScriptCompletion
