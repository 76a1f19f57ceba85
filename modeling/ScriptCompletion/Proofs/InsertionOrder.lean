import Mathlib.Data.List.Induction
import ScriptCompletion.Proofs.VisibleBindings

namespace ScriptCompletion

/-!
# The order of insertion

A frame replaces a binding where it stands, so what a frame holds is less than
what was ever bound in it.  Beside the scopes a log is kept here in which nothing
is replaced: for every open frame, all that was bound in it, oldest first.  A name
is looked up as if the log were read backwards, the innermost frame first, and the
names that can be seen are those of the log read forwards, the root frame first,
each at the place where it first comes.
-/

namespace Keyed

variable {Key : Type} [DecidableEq Key]

theorem mem_distinctBy_id
    {wanted : Key}
    {keys : List Key} :
    wanted ∈ distinctBy id keys ↔ wanted ∈ keys := by
  induction keys with
  | nil =>
      exact Iff.rfl
  | cons first rest inductionHypothesis =>
      by_cases isFirst : wanted = first
      · simp [distinctBy, isFirst]
      · simp [distinctBy, isFirst, inductionHypothesis]

/-- Of two lists the second one adds the keys that the first one does not have. -/
theorem distinctBy_append
    (first second : List Key) :
    distinctBy id (first ++ second) =
      distinctBy id first ++
        (distinctBy id second).filter fun key => decide (key ∉ first) := by
  induction first with
  | nil =>
      simp [distinctBy]
  | cons key rest inductionHypothesis =>
      have bothTests :
          (fun other => (id other != id key) && decide (other ∉ rest)) =
            fun other => decide (other ∉ key :: rest) := by
        funext other
        by_cases isKey : other = key <;> simp [isKey]
      rw [List.cons_append, distinctBy, distinctBy, inductionHypothesis,
        List.filter_append, List.filter_filter, bothTests, List.cons_append]

theorem distinctBy_filter
    (holds : Key → Bool)
    (keys : List Key) :
    distinctBy id (keys.filter holds) = (distinctBy id keys).filter holds := by
  induction keys with
  | nil =>
      rfl
  | cons key rest inductionHypothesis =>
      cases kept : holds key with
      | true =>
          simp only [List.filter_cons, kept, ↓reduceIte, distinctBy,
            inductionHypothesis, List.filter_filter, Bool.and_comm]
      | false =>
          have sameTest :
              (fun other => holds other && (id other != id key)) = holds := by
            funext other
            by_cases isKey : other = key <;> simp [isKey, kept]
          simp only [List.filter_cons, kept, Bool.false_eq_true, ↓reduceIte,
            distinctBy, inductionHypothesis, List.filter_filter, sameTest]

/-- Keys that an image tells apart are kept together with their images. -/
theorem distinctBy_map
    {Image : Type}
    [DecidableEq Image]
    {image : Key → Image}
    {keys : List Key}
    (injective :
      ∀ first ∈ keys, ∀ second ∈ keys,
        image first = image second →
        first = second) :
    distinctBy id (keys.map image) = (distinctBy id keys).map image := by
  induction keys with
  | nil =>
      rfl
  | cons key rest inductionHypothesis =>
      have onRest :
          distinctBy id (rest.map image) = (distinctBy id rest).map image :=
        inductionHypothesis fun first isFirst second isSecond =>
          injective first (List.mem_cons_of_mem key isFirst) second
            (List.mem_cons_of_mem key isSecond)
      rw [List.map_cons, distinctBy, distinctBy, List.map_cons, onRest,
        List.filter_map]
      congr 2
      apply List.filter_congr
      intro other member
      have isRest : other ∈ rest := mem_distinctBy_id.mp member
      have sameTest : image other = image key ↔ other = key :=
        ⟨injective other (List.mem_cons_of_mem key isRest) key
          List.mem_cons_self, congrArg image⟩
      rw [Bool.eq_iff_iff]
      simp [sameTest]

/-- Keeping the first of every key twice is keeping it once. -/
theorem distinctBy_distinctBy (keys : List Key) :
    distinctBy id (distinctBy id keys) = distinctBy id keys := by
  induction keys with
  | nil =>
      rfl
  | cons key rest inductionHypothesis =>
      rw [distinctBy, distinctBy, distinctBy_filter, inductionHypothesis,
        List.filter_filter]
      simp only [Bool.and_self]

/-- Lists may be thinned out before they are put together. -/
theorem distinctBy_flatMap (lists : List (List Key)) :
    distinctBy id (lists.flatMap (distinctBy id)) =
      distinctBy id lists.flatten := by
  induction lists with
  | nil =>
      rfl
  | cons keys rest inductionHypothesis =>
      rw [List.flatMap_cons, List.flatten_cons, distinctBy_append,
        distinctBy_append, distinctBy_distinctBy, inductionHypothesis]
      simp only [mem_distinctBy_id]

/-- Putting keeps every key where it first came. -/
theorem map_key_putAll
    {Item : Type}
    (key : Item → Key)
    (items : List Item) :
    (putAll key [] items).map key = distinctBy id (items.map key) := by
  induction items using List.reverseRecOn with
  | nil =>
      rfl
  | append_singleton earlier item inductionHypothesis =>
      have oneMore :
          putAll key [] (earlier ++ [item]) =
            put key item (putAll key [] earlier) := by
        simp [putAll]
      have alone : distinctBy id [key item] = [key item] := rfl
      rw [oneMore, map_key_put, inductionHypothesis, List.map_append,
        distinctBy_append, List.map_singleton, alone]
      generalize earlier.map key = keys
      by_cases present : key item ∈ keys
      · simp [mem_distinctBy_id, present]
      · simp [mem_distinctBy_id, present]

end Keyed

/-- What can be done to scopes. -/
inductive ScopeOperation where
  /-- Open a scope, with or without a module of its own. -/
  | enter (context : Option String)
  | exit
  | bind (binding : Binding)
  | bindAll (bindings : List Binding)
  | merge (other : Scopes)

namespace ScopeOperation

/-- Carry the operation out; only the root scope cannot be closed. -/
def perform
    (scopes : Scopes) : ScopeOperation → Except ScopeError Scopes
  | .enter context =>
      .ok (scopes.enter context)
  | .exit =>
      scopes.exit
  | .bind binding =>
      .ok (scopes.bind binding)
  | .bindAll bindings =>
      .ok (scopes.bindAll bindings)
  | .merge other =>
      .ok (scopes.merge other)

/-- The scopes after an operation.  One that fails changes nothing. -/
def after
    (scopes : Scopes)
    (operation : ScopeOperation) : Scopes :=
  match operation.perform scopes with
  | .ok next =>
      next
  | .error _ =>
      scopes

/-- The scopes that operations make of the root frame. -/
def build (operations : List ScopeOperation) : Scopes :=
  operations.foldl after .root

end ScopeOperation

/-- What was ever bound in the frames that are open, oldest first in each frame. -/
structure InsertionLog where
  innermost : List Binding
  /-- The frames around the innermost one, innermost first. -/
  outer : List (List Binding)

namespace InsertionLog

/-- Nothing has been bound in the root frame. -/
def initial : InsertionLog where
  innermost := []
  outer := []

/-- The insertions of all frames, innermost first. -/
def frames (log : InsertionLog) : List (List Binding) :=
  log.innermost :: log.outer

/-- Note further insertions into the innermost frame. -/
def insert
    (log : InsertionLog)
    (bindings : List Binding) : InsertionLog :=
  { log with innermost := log.innermost ++ bindings }

/-- Note an operation. -/
def after
    (log : InsertionLog) : ScopeOperation → InsertionLog
  | .enter _ =>
      ⟨[], log.frames⟩
  | .exit =>
      match log.outer with
      | [] =>
          log
      | frame :: outer =>
          ⟨frame, outer⟩
  | .bind binding =>
      log.insert [binding]
  | .bindAll bindings =>
      log.insert bindings
  | .merge other =>
      log.insert other.bindings

/-- The log of operations on the root frame. -/
def ofOperations (operations : List ScopeOperation) : InsertionLog :=
  operations.foldl after initial

/-- The names of a space that were bound, those of the root frame first. -/
def namesIn
    (log : InsertionLog)
    (space : Space) : List String :=
  (log.frames.reverse.flatten.filter fun binding =>
    Binding.space binding == space).map BindingOf.name

/-- The names among keys of one space. -/
def keyNames
    (space : Space)
    (keys : List (Space × String)) : List String :=
  (keys.filter fun key => key.1 == space).map Prod.snd

theorem keyNames_map_key
    (space : Space)
    (bindings : List Binding) :
    keyNames space (bindings.map Binding.key) =
      (bindings.filter fun binding =>
        Binding.space binding == space).map BindingOf.name := by
  rw [keyNames, List.filter_map, List.map_map]
  rfl

/-- The names that can be seen are those among the keys of all bindings. -/
theorem visibleNames_eq_keyNames
    (scopes : Scopes)
    (space : Space) :
    scopes.visibleNames space =
      Keyed.distinctBy id
        (keyNames space (scopes.bindings.map Binding.key)) := by
  rw [Scopes.visibleNames, Scopes.visible, Keyed.map_key_putAll,
    ← keyNames_map_key]

theorem distinctBy_keyNames
    (space : Space)
    (keys : List (Space × String)) :
    Keyed.distinctBy id (keyNames space keys) =
      keyNames space (Keyed.distinctBy id keys) := by
  rw [keyNames, Keyed.distinctBy_map, Keyed.distinctBy_filter, keyNames]
  intro first isFirst second isSecond sameName
  have sameSpace : first.1 = second.1 := by
    have firstSpace := (List.mem_filter.mp isFirst).2
    have secondSpace := (List.mem_filter.mp isSecond).2
    rw [beq_iff_eq] at firstSpace secondSpace
    rw [firstSpace, secondSpace]
  exact Prod.ext sameSpace sameName

/-- What was bound last under a name in the innermost frame that has it. -/
def latest?
    (log : InsertionLog)
    (space : Space)
    (name : String) : Option Binding :=
  log.frames.findSome? fun inserted =>
    Keyed.find? Binding.key (space, name) inserted.reverse

/-- The frames hold what the log makes of them. -/
def Describes
    (log : InsertionLog)
    (scopes : Scopes) : Prop :=
  scopes.frames.map Frame.bindings =
    log.frames.map (Keyed.putAll Binding.key [])

namespace Describes

variable {log : InsertionLog} {scopes : Scopes}

theorem bindAll
    (describes : log.Describes scopes)
    (bindings : List Binding) :
    (log.insert bindings).Describes (scopes.bindAll bindings) := by
  simp only [Describes, Scopes.frames, frames, List.map_cons,
    List.cons.injEq] at describes
  obtain ⟨sameInnermost, sameOuter⟩ := describes
  have further :
      Keyed.putAll Binding.key [] (log.innermost ++ bindings) =
        Keyed.putAll Binding.key scopes.innermost.bindings bindings := by
    rw [sameInnermost]
    exact List.foldl_append
  simp only [Describes, Scopes.frames_bindAll, frames, insert, List.map_cons,
    further, sameOuter, Frame.bindAll]

theorem exit
    (describes : log.Describes scopes) :
    (log.after .exit).Describes (ScopeOperation.exit.after scopes) := by
  obtain ⟨innermost, outer⟩ := scopes
  obtain ⟨inserted, around⟩ := log
  cases outer with
  | nil =>
      cases around with
      | nil =>
          exact describes
      | cons frame rest =>
          simp [Describes, Scopes.frames, frames] at describes
  | cons frame rest =>
      cases around with
      | nil =>
          simp [Describes, Scopes.frames, frames] at describes
      | cons insertedAround further =>
          exact (List.cons.inj describes).2

/-- Every operation keeps the log true. -/
theorem after
    (describes : log.Describes scopes)
    (operation : ScopeOperation) :
    (log.after operation).Describes (operation.after scopes) := by
  cases operation with
  | enter context =>
      exact congrArg (List.cons []) describes
  | exit =>
      exact describes.exit
  | bind binding =>
      exact describes.bindAll [binding]
  | bindAll bindings =>
      exact describes.bindAll bindings
  | merge other =>
      exact describes.bindAll other.bindings

theorem foldl_after
    (describes : log.Describes scopes)
    (operations : List ScopeOperation) :
    (operations.foldl InsertionLog.after log).Describes
      (operations.foldl ScopeOperation.after scopes) := by
  induction operations generalizing log scopes with
  | nil =>
      exact describes
  | cons operation rest inductionHypothesis =>
      exact inductionHypothesis (describes.after operation)

/-- A frame that is made of insertions holds no key twice. -/
theorem areDistinct
    (describes : log.Describes scopes) :
    scopes.AreDistinct := by
  intro frame member
  have isMade : frame.bindings ∈ scopes.frames.map Frame.bindings :=
    List.mem_map_of_mem member
  rw [describes] at isMade
  obtain ⟨inserted, -, made⟩ := List.mem_map.mp isMade
  have nothing : (([] : List Binding).map Binding.key).Nodup :=
    List.nodup_nil
  rw [← made]
  exact Keyed.nodup_putAll nothing inserted

/-- A name stands for what was bound last under it, in the innermost frame that
has it. -/
theorem lookup_eq
    (describes : log.Describes scopes)
    (space : Space)
    (name : String) :
    scopes.lookup space name = log.latest? space name := by
  have inBindings :
      scopes.lookup space name =
        (scopes.frames.map Frame.bindings).findSome?
          (Keyed.find? Binding.key (space, name)) := by
    rw [List.findSome?_map]
    rfl
  rw [inBindings, describes, List.findSome?_map]
  simp only [latest?, Function.comp_def, Keyed.find?_putAll, Keyed.find?_nil,
    Option.or_none]

/-- The keys of all frames are those of the log, each frame thinned out. -/
theorem map_key_bindings
    (describes : log.Describes scopes) :
    scopes.bindings.map Binding.key =
      (log.frames.reverse.map fun inserted =>
        inserted.map Binding.key).flatMap (Keyed.distinctBy id) := by
  have frameByFrame :
      scopes.frames.map (fun frame => frame.bindings.map Binding.key) =
        log.frames.map fun inserted =>
          Keyed.distinctBy id (inserted.map Binding.key) := by
    simpa only [List.map_map, Function.comp_def, Keyed.map_key_putAll] using
      congrArg (List.map (List.map Binding.key)) describes
  rw [Scopes.bindings, List.map_flatMap, List.flatMap_def, List.map_reverse,
    frameByFrame, List.flatMap_def, List.map_map, List.map_reverse]
  rfl

/-- The names that can be seen are those that were bound, each where it was first
bound. -/
theorem visibleNames_eq
    (describes : log.Describes scopes)
    (space : Space) :
    scopes.visibleNames space = Keyed.distinctBy id (log.namesIn space) := by
  calc
    scopes.visibleNames space
      = Keyed.distinctBy id
          (keyNames space (scopes.bindings.map Binding.key)) :=
        visibleNames_eq_keyNames scopes space
    _ = keyNames space
          (Keyed.distinctBy id
            (log.frames.reverse.flatten.map Binding.key)) := by
        rw [distinctBy_keyNames, describes.map_key_bindings,
          Keyed.distinctBy_flatMap, List.map_flatten]
    _ = Keyed.distinctBy id (log.namesIn space) := by
        rw [← distinctBy_keyNames, keyNames_map_key, namesIn]

end Describes

end InsertionLog

/-- The variables that candidates are shown are those that can be seen. -/
theorem Scopes.variableNames_view (scopes : Scopes) :
    ScopesView.variableNames scopes.view = scopes.visibleNames .variable := by
  have shown
      (bindings : List Binding) :
      (bindings.map Binding.view).filterMap BindingOf.variableName? =
        InsertionLog.keyNames .variable (bindings.map Binding.key) := by
    induction bindings with
    | nil =>
        rfl
    | cons first rest inductionHypothesis =>
        obtain ⟨own, descriptor | target | text⟩ := first
        · exact inductionHypothesis
        · exact inductionHypothesis
        · exact congrArg (own :: ·) inductionHypothesis
  rw [InsertionLog.visibleNames_eq_keyNames]
  simp only [ScopesView.variableNames, Scopes.view, ← List.map_reverse,
    List.flatMap_map, Frame.view, shown, Scopes.bindings,
    InsertionLog.keyNames, List.map_flatMap, List.filter_flatMap]

/--
Looking names up and listing them agree, whatever is done to the root frame.  In
every frame a binding is filed under its own space and name.  In every space the
names that can be seen are listed once each, in the order in which they were first
bound from the root frame inwards, and each with the binding that the name stands
for, which is the one bound last in the innermost frame that has the name.
-/
theorem lookup_agrees_with_enumeration (operations : List ScopeOperation) :
    let scopes := ScopeOperation.build operations
    let log := InsertionLog.ofOperations operations
    (∀ frame ∈ scopes.frames, ∀ space name binding,
      frame.find? space name = some binding ↔
        binding ∈ frame.bindings ∧
          Binding.space binding = space ∧
          binding.name = name) ∧
    ∀ space,
      (scopes.visibleNames space).Nodup ∧
        (∀ binding,
          binding ∈ scopes.visible space ↔
            scopes.lookup space binding.name = some binding) ∧
        scopes.visibleNames space = Keyed.distinctBy id (log.namesIn space) ∧
        ∀ name, scopes.lookup space name = log.latest? space name := by
  intro scopes log
  have nothingBound : InsertionLog.initial.Describes .root := rfl
  have describes : log.Describes scopes := nothingBound.foldl_after operations
  have distinct := describes.areDistinct
  constructor
  · intro frame member space name binding
    rw [Frame.find?, Keyed.find?_eq_some_iff (distinct frame member),
      Binding.key_eq_iff]
  · intro space
    exact ⟨Scopes.nodup_visibleNames scopes space,
      fun _ => Scopes.mem_visible_iff_lookup distinct,
      describes.visibleNames_eq space, describes.lookup_eq space⟩

example :
    let scopes :=
      ScopeOperation.build
        [.bind (.ofVariable "$a" "1"), .bind (.ofVariable "$b" "2"),
          .enter (some "std"), .bind (.ofVariable "$c" "3"),
          .bind (.ofVariable "$a" "4"), .bind (.ofVariable "$a" "5")]
    scopes.visibleNames .variable = ["$a", "$b", "$c"] ∧
      scopes.variableText? "$a" = some "5" := by
  decide

end ScriptCompletion
