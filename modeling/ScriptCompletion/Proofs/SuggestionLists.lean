import ScriptCompletion.Proofs.ForwardReferences
import ScriptCompletion.Proofs.OfferedCommands

namespace ScriptCompletion

/-!
# The shape of a list of suggestions

A list of suggestions is made of groups, one kind of item after the other, and which
kinds they are depends on what is being written.  Inside a group no label comes twice: of
equal commands, candidates and helpers the first one is kept, and no variable can be seen
twice.  So no two items of the whole list share their kind and their label.

The largest number of suggestions comes last.  It cuts the list that the same pass would
end with otherwise, and changes nothing else of the pass.
-/

namespace Suggestion

/-- The kinds of items that are listed, in their order. -/
def Context.kinds : Context → List ItemKind
  | .commandName =>
      [.variable, .command]
  | .argument _ _ =>
      [.argumentValue, .helper, .variable]
  | .other =>
      [.helper, .variable]

/-- The items of one kind. -/
def ofKind
    (kind : ItemKind)
    (items : List Item) : List Item :=
  items.filter fun item => item.kind == kind

@[simp]
theorem ofKind_append
    (kind : ItemKind)
    (first second : List Item) :
    ofKind kind (first ++ second) = ofKind kind first ++ ofKind kind second :=
  List.filter_append ..

/-- Items of one kind, each with a label of its own, that put their label in the place of
a stretch of text. -/
structure AreOfKind
    (kind : ItemKind)
    (range : Span)
    (items : List Item) : Prop where
  sameKind : ∀ item ∈ items, item.kind = kind
  inserts : ∀ item ∈ items, item.insertText = item.label ∧ item.range = range
  distinct : (items.map Item.label).Nodup

namespace AreOfKind

variable {kind : ItemKind} {range : Span} {items : List Item}

/-- The first items of every label among items that insert their labels. -/
theorem of_distinctBy
    (ofLabel :
      ∀ item ∈ items,
        ∃ detail, item = .ofLabel item.label kind range detail) :
    AreOfKind kind range (Keyed.distinctBy Item.label items) := by
  have kept :
      ∀ item ∈ Keyed.distinctBy Item.label items,
        ∃ detail, item = .ofLabel item.label kind range detail := by
    intro item member
    have found := Keyed.mem_distinctBy_iff.mp member
    exact ofLabel item (List.mem_of_find?_eq_some found)
  refine ⟨?_, ?_, Keyed.nodup_distinctBy _ _⟩
  · intro item member
    obtain ⟨detail, shape⟩ := kept item member
    rw [shape]
    rfl
  · intro item member
    obtain ⟨detail, shape⟩ := kept item member
    rw [shape]
    exact ⟨rfl, rfl⟩

theorem nil : AreOfKind kind range [] :=
  ⟨by simp, by simp, by simp⟩

theorem ofKind_same
    (areOfKind : AreOfKind kind range items) :
    ofKind kind items = items := by
  rw [ofKind, List.filter_eq_self]
  intro item member
  rw [areOfKind.sameKind item member, beq_self_eq_true]

theorem ofKind_other
    (areOfKind : AreOfKind kind range items)
    {other : ItemKind}
    (different : kind ≠ other) :
    ofKind other items = [] := by
  rw [ofKind, List.filter_eq_nil_iff]
  intro item member
  rw [areOfKind.sameKind item member, beq_iff_eq]
  exact different

end AreOfKind

/-!
## Groups of items
-/

variable {scopes : Scopes} {range : Span}

theorem map_label_variableItems
    (scopes : Scopes)
    (range : Span) :
    (variableItems scopes range).map Item.label =
      scopes.visibleNames .variable := by
  rw [variableItems, List.map_map]
  exact List.map_id _

theorem variableItems_areOfKind
    (scopes : Scopes)
    (range : Span) :
    AreOfKind .variable range (variableItems scopes range) := by
  refine ⟨?_, ?_, ?_⟩
  · rw [variableItems, List.forall_mem_map]
    exact fun _ _ => rfl
  · rw [variableItems, List.forall_mem_map]
    exact fun _ _ => ⟨rfl, rfl⟩
  · rw [map_label_variableItems]
    exact scopes.nodup_visibleNames .variable

theorem commandItems_areOfKind
    (scopes : Scopes)
    (range : Span) :
    AreOfKind .command range (commandItems scopes range) := by
  apply AreOfKind.of_distinctBy
  intro item member
  obtain ⟨entry, -, inModule⟩ := List.mem_flatMap.mp member
  obtain ⟨command, -, rfl⟩ := List.mem_map.mp inModule
  exact ⟨_, rfl⟩

theorem helperItems_areOfKind
    (scopes : Scopes)
    (range : Span) :
    AreOfKind .helper range (helperItems scopes range) := by
  apply AreOfKind.of_distinctBy
  intro item member
  obtain ⟨entry, -, inModule⟩ := List.mem_flatMap.mp member
  obtain ⟨helper, -, rfl⟩ := List.mem_map.mp inModule
  exact ⟨_, rfl⟩

theorem argumentItems_areOfKind
    (scopes : Scopes)
    (command : Script.Command)
    (index : Nat)
    (range : Span) :
    AreOfKind .argumentValue range
      (argumentItems scopes command index range) := by
  unfold argumentItems
  split
  · exact .nil
  · split
    · exact .nil
    · apply AreOfKind.of_distinctBy
      intro item member
      obtain ⟨value, -, rfl⟩ := List.mem_map.mp member
      exact ⟨_, rfl⟩

/-- One group of items for each of the given kinds, in their order. -/
inductive AreGrouped (range : Span) : List ItemKind → List Item → Prop where
  | nil :
      AreGrouped range [] []
  | append {kind : ItemKind} {group : List Item} {kinds : List ItemKind}
      {later : List Item} :
      AreOfKind kind range group →
      AreGrouped range kinds later →
      AreGrouped range (kind :: kinds) (group ++ later)

/-- The items are listed in groups. -/
theorem assemble_areGrouped
    (context : Context)
    (scopes : Scopes)
    (range : Span) :
    AreGrouped range context.kinds (assemble context scopes range) := by
  have last
      {kind : ItemKind}
      {group : List Item}
      (groupKind : AreOfKind kind range group) :
      AreGrouped range [kind] group := by
    simpa using AreGrouped.append groupKind .nil
  have variableGroup := variableItems_areOfKind scopes range
  have helperGroup := helperItems_areOfKind scopes range
  cases context with
  | commandName =>
      exact .append variableGroup (last (commandItems_areOfKind scopes range))
  | argument command index =>
      rw [assemble, List.append_assoc]
      exact .append (argumentItems_areOfKind scopes command index range)
        (.append helperGroup (last variableGroup))
  | other =>
      exact .append helperGroup (last variableGroup)

namespace AreGrouped

variable {kinds : List ItemKind} {items : List Item}

theorem kind_mem
    (grouped : AreGrouped range kinds items) :
    ∀ item ∈ items, item.kind ∈ kinds := by
  induction grouped with
  | nil =>
      simp
  | append groupKind _ inductionHypothesis =>
      intro item member
      rcases List.mem_append.mp member with inGroup | isLater
      · rw [groupKind.sameKind item inGroup]
        exact List.mem_cons_self
      · exact List.mem_cons_of_mem _ (inductionHypothesis item isLater)

theorem inserts
    (grouped : AreGrouped range kinds items) :
    ∀ item ∈ items, item.insertText = item.label ∧ item.range = range := by
  induction grouped with
  | nil =>
      simp
  | append groupKind _ inductionHypothesis =>
      intro item member
      rcases List.mem_append.mp member with inGroup | isLater
      · exact groupKind.inserts item inGroup
      · exact inductionHypothesis item isLater

/-- Where no kind comes twice, no two items share their kind and their label. -/
theorem nodup
    (grouped : AreGrouped range kinds items)
    (distinct : kinds.Nodup) :
    (items.map fun item => (item.kind, item.label)).Nodup := by
  induction grouped with
  | nil =>
      exact List.nodup_nil
  | append groupKind later inductionHypothesis =>
      obtain ⟨isNew, restDistinct⟩ := List.nodup_cons.mp distinct
      rw [List.map_append, List.nodup_append]
      refine ⟨?_, inductionHypothesis restDistinct, ?_⟩
      · apply List.Nodup.of_map Prod.snd
        rw [List.map_map]
        exact groupKind.distinct
      · -- Items of different groups differ in their kind, whatever their labels are.
        intro first inGroup second isLater same
        obtain ⟨item, isItem, rfl⟩ := List.mem_map.mp inGroup
        obtain ⟨other, isOther, rfl⟩ := List.mem_map.mp isLater
        have sameKind : item.kind = other.kind := congrArg Prod.fst same
        rw [groupKind.sameKind item isItem] at sameKind
        exact isNew (sameKind ▸ later.kind_mem other isOther)

/-- Where no kind comes twice, the groups are the items of each kind. -/
theorem eq_flatMap
    (grouped : AreGrouped range kinds items)
    (distinct : kinds.Nodup) :
    items = kinds.flatMap fun kind => ofKind kind items := by
  induction grouped with
  | nil =>
      rfl
  | @append kind group kinds later groupKind grouped inductionHypothesis =>
      obtain ⟨isNew, restDistinct⟩ := List.nodup_cons.mp distinct
      have noneLater : ofKind kind later = [] := by
        rw [ofKind, List.filter_eq_nil_iff]
        intro item isLater
        rw [beq_iff_eq]
        intro sameKind
        exact isNew (sameKind ▸ grouped.kind_mem item isLater)
      have restOnly :
          ∀ other ∈ kinds, ofKind other (group ++ later) = ofKind other later := by
        intro other isOther
        have different : kind ≠ other := fun same => isNew (same ▸ isOther)
        rw [ofKind_append, groupKind.ofKind_other different, List.nil_append]
      rw [List.flatMap_cons, ofKind_append, groupKind.ofKind_same, noneLater,
        List.append_nil, List.flatMap_congr restOnly,
        ← inductionHypothesis restDistinct]

end AreGrouped

theorem nodup_kinds (context : Context) : context.kinds.Nodup := by
  cases context <;>
    simp [Context.kinds]

/-- Variables are listed wherever the cursor is. -/
theorem ofKind_variable_assemble
    (context : Context)
    (scopes : Scopes)
    (range : Span) :
    ofKind .variable (assemble context scopes range) =
      variableItems scopes range := by
  have own := (variableItems_areOfKind scopes range).ofKind_same
  have noHelper :=
    (helperItems_areOfKind scopes range).ofKind_other
      (show ItemKind.helper ≠ .variable by decide)
  cases context with
  | commandName =>
      have noCommand :=
        (commandItems_areOfKind scopes range).ofKind_other
          (show ItemKind.command ≠ .variable by decide)
      rw [assemble, ofKind_append, own, noCommand, List.append_nil]
  | argument command index =>
      have noArgument :=
        (argumentItems_areOfKind scopes command index range).ofKind_other
          (show ItemKind.argumentValue ≠ .variable by decide)
      rw [assemble, ofKind_append, ofKind_append, own, noArgument, noHelper]
      rfl
  | other =>
      rw [assemble, ofKind_append, own, noHelper, List.nil_append]

/-- A variable that is listed can be seen. -/
theorem label_mem_visibleNames
    {context : Context}
    {item : Item}
    (member : item ∈ assemble context scopes range)
    (isVariable : item.kind = .variable) :
    item.label ∈ scopes.visibleNames .variable := by
  have ofVariables : item ∈ ofKind .variable (assemble context scopes range) := by
    rw [ofKind, List.mem_filter, beq_iff_eq]
    exact ⟨member, isVariable⟩
  rw [ofKind_variable_assemble] at ofVariables
  rw [← map_label_variableItems scopes range]
  exact List.mem_map_of_mem ofVariables

/-- Where helpers are listed, these are all. -/
theorem ofKind_helper_assemble
    {context : Context}
    (offered : .helper ∈ context.kinds)
    (scopes : Scopes)
    (range : Span) :
    ofKind .helper (assemble context scopes range) = helperItems scopes range := by
  have own := (helperItems_areOfKind scopes range).ofKind_same
  have noVariable :=
    (variableItems_areOfKind scopes range).ofKind_other
      (show ItemKind.variable ≠ .helper by decide)
  cases context with
  | commandName =>
      exact absurd offered (by decide)
  | argument command index =>
      have noArgument :=
        (argumentItems_areOfKind scopes command index range).ofKind_other
          (show ItemKind.argumentValue ≠ .helper by decide)
      rw [assemble, ofKind_append, ofKind_append, own, noArgument, noVariable,
        List.nil_append, List.append_nil]
  | other =>
      rw [assemble, ofKind_append, own, noVariable, List.append_nil]

/-!
## The module of a helper
-/

/-- The first module that can be seen and has a helper of the name. -/
def helperModule?
    (scopes : Scopes)
    (name : String) : Option Module :=
  ((scopes.visible .module).filterMap Binding.module?).find? fun module =>
    module.helpers.any fun helper => helper.name == name

theorem modules_visible (scopes : Scopes) :
    (scopes.visible .module).filterMap Binding.module? =
      (visibleModules scopes).map Prod.snd := by
  rw [visible_module, List.filterMap_map]
  exact congrFun List.filterMap_eq_map (visibleModules scopes)

/-- The first helper with a label comes from the first module that has one of the name. -/
theorem find?_helpers
    (scopes : Scopes)
    (range : Span)
    (name : String) :
    Keyed.find? Item.label ("@" ++ name)
        ((visibleModules scopes).flatMap fun (_, module) =>
          module.helpers.map fun helper =>
            .ofLabel ("@" ++ helper.name) .helper range (some module.name)) =
      (helperModule? scopes name).map fun module =>
        .ofLabel ("@" ++ name) .helper range (some module.name) := by
  have sameLabel (own : String) : ("@" ++ own == "@" ++ name) = (own == name) := by
    rw [Bool.eq_iff_iff, beq_iff_eq, beq_iff_eq]
    simp
  have listed :=
    find?_flatMap_ofLabel (fun entry : String × Module => entry.2.helpers)
      (fun _ helper => "@" ++ helper.name) (fun entry => some entry.2.name)
      .helper range ("@" ++ name) (visibleModules scopes)
  simp only [sameLabel] at listed
  rw [helperModule?, modules_visible, List.find?_map, Option.map_map]
  exact listed

/-- A helper is listed for each name that a module in scope has, with the first such
module. -/
theorem mem_helperItems_iff
    {item : Item} :
    item ∈ helperItems scopes range ↔
      ∃ name module,
        helperModule? scopes name = some module ∧
          item = .ofLabel ("@" ++ name) .helper range (some module.name) := by
  rw [helperItems, Keyed.mem_distinctBy_iff]
  constructor
  · intro found
    obtain ⟨entry, -, inModule⟩ :=
      List.mem_flatMap.mp (List.mem_of_find?_eq_some found)
    obtain ⟨helper, -, shape⟩ := List.mem_map.mp inModule
    have isLabel : item.label = "@" ++ helper.name := by
      rw [← shape]
      rfl
    rw [isLabel, find?_helpers, Option.map_eq_some_iff] at found
    obtain ⟨module, first, isItem⟩ := found
    exact ⟨helper.name, module, first, isItem.symm⟩
  · rintro ⟨name, module, first, rfl⟩
    have listed := find?_helpers scopes range name
    rw [first] at listed
    exact listed

/-!
## The list of a pass
-/

/-- The items that are listed for what is being written, before they are cut: kind after
kind, no label of a kind twice, each to be put in the place of the word, the variables
that can be seen and, where helpers are listed, the helpers of all modules that can be
seen, each with the first module that has one of its name. -/
structure AreListedFor
    (context : Context)
    (scopes : Scopes)
    (range : Span)
    (items : List Item) : Prop where
  inOrder : items = context.kinds.flatMap fun kind => ofKind kind items
  distinct : (items.map fun item => (item.kind, item.label)).Nodup
  inserts : ∀ item ∈ items, item.insertText = item.label ∧ item.range = range
  variableNames :
    (ofKind .variable items).map Item.label = scopes.visibleNames .variable
  helpers :
    .helper ∈ context.kinds →
    ∀ label detail,
      (∃ item ∈ ofKind .helper items,
          item.label = label ∧ item.detail = detail) ↔
        ∃ name module,
          helperModule? scopes name = some module ∧
            label = "@" ++ name ∧ detail = some module.name

theorem assemble_areListedFor
    (context : Context)
    (scopes : Scopes)
    (range : Span) :
    AreListedFor context scopes range (assemble context scopes range) := by
  have grouped := assemble_areGrouped context scopes range
  refine
    { inOrder := grouped.eq_flatMap (nodup_kinds context)
      distinct := grouped.nodup (nodup_kinds context)
      inserts := grouped.inserts
      variableNames := ?_
      helpers := ?_ }
  · rw [ofKind_variable_assemble, map_label_variableItems]
  · intro offered label detail
    rw [ofKind_helper_assemble offered]
    constructor
    · rintro ⟨item, member, rfl, rfl⟩
      obtain ⟨name, module, first, rfl⟩ := mem_helperItems_iff.mp member
      exact ⟨name, module, first, rfl, rfl⟩
    · rintro ⟨name, module, first, rfl, rfl⟩
      exact ⟨_, mem_helperItems_iff.mpr ⟨name, module, first, rfl⟩, rfl, rfl⟩

end Suggestion

namespace Engine

/-- The same engine without a largest number of suggestions. -/
def unlimited (engine : Engine) : Engine :=
  { engine with
    configuration := { engine.configuration with maxSuggestions := none } }

/-- The items of a draft are those that the scopes at the cursor have to offer, cut to
the largest number. -/
theorem items_draft
    (engine : Engine)
    (session : Session)
    (text : String)
    (cursor : Position) :
    let commands := (Script.parse text).commands
    let line := Text.lineAt text cursor.line
    (engine.draft session text cursor).items =
      engine.limit
        (Suggestion.assemble
          (Suggestion.classify commands line cursor)
          (engine.journey (engine.loading session text) commands cursor).scopes
          (Suggestion.wordSpan line cursor)) :=
  rfl

/-- Cutting a list adds nothing to it. -/
theorem mem_of_mem_limit
    {engine : Engine}
    {items : List Suggestion.Item}
    {item : Suggestion.Item}
    (member : item ∈ engine.limit items) :
    item ∈ items := by
  unfold limit at member
  split at member
  · exact member
  · exact List.mem_of_mem_take member

/-- A pass completes if it is the latest one, and then with the items of its draft. -/
theorem outcome_conclude_iff
    {draft : Draft}
    {ending : Session}
    {ticket : Ticket}
    {items : List Suggestion.Item} :
    (draft.conclude ending ticket).1.outcome = .completed items ↔
      ending.isLatest ticket = true ∧ items = draft.items := by
  unfold Draft.conclude Session.commit
  cases ending.isLatest ticket with
  | false =>
      simp
  | true =>
      simp [eq_comm]

/--
The shape of a list of suggestions.  Take any engine, any session and a pass over any text
with any cursor that completes, whatever the session is when it ends.  Without a largest
number of suggestions the same pass completes too, with a list that is made for what is
being written: variables and commands, or candidates, helpers and variables, or helpers
and variables, in this order.  No two of its items share their kind and their label, every
item puts its label in the place of the word at the cursor, its variables are the ones that
can be seen where the walk has arrived, in their order, and where there are helpers these
are the ones of all modules that can be seen there, each with the first module that has
it.  The pass completes with this list or with as many of its first items as are wanted.
-/
theorem completed_items_shaped
    (engine : Engine)
    (session : Session)
    (text : String)
    (cursor : Position)
    (ending : Session)
    (ticket : Ticket)
    (items : List Suggestion.Item)
    (completed :
      ((engine.draft session text cursor).conclude ending ticket).1.outcome =
        .completed items) :
    let commands := (Script.parse text).commands
    let line := Text.lineAt text cursor.line
    ∃ all,
      ((engine.unlimited.draft session text cursor).conclude
            ending ticket).1.outcome =
          .completed all ∧
        Suggestion.AreListedFor
          (Suggestion.classify commands line cursor)
          (engine.journey (engine.loading session text) commands cursor).scopes
          (Suggestion.wordSpan line cursor)
          all ∧
        (engine.configuration.maxSuggestions = none → items = all) ∧
        ∀ number,
          engine.configuration.maxSuggestions = some number →
          items = all.take number := by
  intro commands line
  obtain ⟨latest, rfl⟩ := outcome_conclude_iff.mp completed
  refine ⟨_, outcome_conclude_iff.mpr ⟨latest, rfl⟩, ?_, ?_, ?_⟩
  · exact Suggestion.assemble_areListedFor _ _ _
  · intro noNumber
    rw [items_draft, limit, noNumber]
    rfl
  · intro number isNumber
    rw [items_draft, limit, isNumber]
    rfl

/--
The argument of a command inside a block, with a largest number that cuts the helpers off
behind the second one.  The variables are listed twice, as candidates and for themselves.
-/
theorem completed_items_shaped_argument :
    let engine : Engine :=
      { standalone with configuration := { maxSuggestions := some 5 } }
    let text :=
      "load aragonos\n" ++
        "connect 0x2222222222222222222222222222222222222222 (\n" ++
        "  set $org @me\n  grant \n"
    let cursor : Position := ⟨3, 8⟩
    let session := Session.initial.begin.2
    let ticket := Session.initial.begin.1
    let draft := engine.draft session text cursor
    let scopes :=
      (engine.journey (engine.loading session text)
        (Script.parse text).commands cursor).scopes
    (draft.conclude session ticket).1.outcome = .completed draft.items ∧
      draft.items.map Suggestion.Item.label =
        ["$dao", "$org", "ANY_ENTITY", "@date", "@get"] ∧
      ∃ all,
        ((engine.unlimited.draft session text cursor).conclude
              session ticket).1.outcome =
            .completed all ∧
          (Suggestion.ofKind .variable all).map Suggestion.Item.label =
            scopes.visibleNames .variable ∧
          (all.map fun item => (item.kind, item.label)).Nodup ∧
          draft.items = all.take 5 := by
  intro engine text cursor session ticket draft scopes
  have completed :
      (draft.conclude session ticket).1.outcome = .completed draft.items := by
    decide +kernel
  have labels :
      draft.items.map Suggestion.Item.label =
        ["$dao", "$org", "ANY_ENTITY", "@date", "@get"] := by
    decide +kernel
  obtain ⟨all, unlimited, listed, -, cut⟩ :=
    completed_items_shaped engine session text cursor session ticket draft.items
      completed
  exact ⟨completed, labels, all, unlimited, listed.variableNames, listed.distinct,
    cut 5 rfl⟩

end Engine

end ScriptCompletion
