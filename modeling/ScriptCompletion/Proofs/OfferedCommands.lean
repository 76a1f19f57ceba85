import ScriptCompletion.Proofs.VisibleBindings
import ScriptCompletion.Suggestion.Item

namespace ScriptCompletion

/-!
# Offered commands are those that resolve

Suggestions and the resolution of names choose between modules on their own.  A
suggestion takes the modules by rank and keeps the first command of every label; a
name is sought in the module of the enclosing block, in the standard one and in
those without alias.  Both find the same modules, since the first module that
offers a label is the first one in which the name is sought.
-/

/-- A name that some command of a module has is found in the module. -/
theorem Module.exists_command?_of_mem
    {module : Module}
    {command : CommandEntry}
    (member : command ∈ module.commands) :
    ∃ found, module.command? command.name = some found := by
  apply Option.isSome_iff_exists.mp
  rw [Module.command?, Keyed.find?, List.find?_isSome]
  exact ⟨command, member, by simp⟩

/-- The command of a name in a module with its key. -/
def commandOf?
    (name : String)
    (entry : String × Module) : Option ResolvedCommand :=
  (entry.2.command? name).map fun command => ⟨entry.1, entry.2, command⟩

theorem commandOf?_eq_some_iff
    {name : String}
    {entry : String × Module}
    {resolved : ResolvedCommand} :
    commandOf? name entry = some resolved ↔
      entry = (resolved.key, resolved.module) ∧
        entry.2.command? name = some resolved.command := by
  obtain ⟨key, module⟩ := entry
  obtain ⟨ownKey, ownModule, command⟩ := resolved
  simp only [commandOf?, Option.map_eq_some_iff, ResolvedCommand.mk.injEq,
    Prod.mk.injEq]
  constructor
  · rintro ⟨own, found, rfl, rfl, rfl⟩
    exact ⟨⟨rfl, rfl⟩, found⟩
  · rintro ⟨⟨rfl, rfl⟩, found⟩
    exact ⟨command, found, rfl, rfl, rfl⟩

theorem ofBinding?_ofModule
    (key : String)
    (module : Module)
    (name : String) :
    ResolvedCommand.ofBinding? (.ofModule key module) name =
      commandOf? name (key, module) := by
  have bound : Binding.module? (.ofModule key module) = some module := rfl
  have sameName : (Binding.ofModule key module).name = key := rfl
  cases found : module.command? name <;>
    simp [ResolvedCommand.ofBinding?, commandOf?, bound, sameName, found]

namespace Scopes

/-- A command under a key is one of the module under the key. -/
theorem commandUnder?_eq
    (scopes : Scopes)
    (key name : String) :
    scopes.commandUnder? key name =
      (scopes.module? key).bind fun module => commandOf? name (key, module) := by
  unfold commandUnder?
  rw [lookup_module]
  cases scopes.module? key with
  | none =>
      rfl
  | some module =>
      exact ofBinding?_ofModule key module name

/-- A qualified name is sought in the module under its qualifier only. -/
theorem resolve_some_eq_ok_iff
    {scopes : Scopes}
    {key name : String}
    {resolved : ResolvedCommand} :
    scopes.resolve (some key) name = .ok resolved ↔
      scopes.commandUnder? key name = some resolved := by
  simp only [resolve, resolveQualified, commandUnder?]
  cases scopes.lookup .module key with
  | none =>
      cases scopes.aliasTarget? key <;>
        simp
  | some binding =>
      cases found : ResolvedCommand.ofBinding? binding name <;>
        simp [found]

end Scopes

namespace Suggestion

open Scopes

/-- Everything that can be seen in the space of modules is a module. -/
theorem visible_module
    (scopes : Scopes) :
    scopes.visible .module =
      (visibleModules scopes).map fun entry =>
        Binding.ofModule entry.1 entry.2 := by
  have areModules :
      ∀ binding ∈ scopes.visible .module, Binding.space binding = .module := by
    intro binding member
    rcases Keyed.mem_of_mem_putAll member with impossible | inSpace
    · cases impossible
    · simpa using (List.mem_filter.mp inSpace).2
  unfold visibleModules
  generalize scopes.visible .module = bindings at areModules
  induction bindings with
  | nil =>
      rfl
  | cons binding rest inductionHypothesis =>
      rw [List.forall_mem_cons] at areModules
      obtain ⟨module, shape⟩ := eq_ofModule_of_space areModules.1
      have bound : Binding.module? binding = some module := by
        rw [shape]
        rfl
      rw [List.filterMap_cons, bound, Option.map_some, List.map_cons,
        ← inductionHypothesis areModules.2, ← shape]

/-- The modules in scope are those under some key. -/
theorem mem_visibleModules_iff
    {scopes : Scopes}
    (distinct : scopes.AreDistinct)
    {key : String}
    {module : Module} :
    (key, module) ∈ visibleModules scopes ↔
      scopes.module? key = some module := by
  have visible :
      (key, module) ∈ visibleModules scopes ↔
        Binding.ofModule key module ∈ scopes.visible .module := by
    rw [visible_module, List.mem_map]
    constructor
    · intro member
      exact ⟨_, member, rfl⟩
    · rintro ⟨entry, member, same⟩
      cases same
      exact member
  have sameName : (Binding.ofModule key module).name = key := rfl
  rw [visible, mem_visible_iff_lookup distinct, sameName, lookup_module,
    Option.map_eq_some_iff]
  constructor
  · rintro ⟨own, found, same⟩
    cases same
    exact found
  · intro found
    exact ⟨module, found, rfl⟩

/-- The commands without qualifier come from the modules in scope. -/
theorem unaliasedCommands_eq
    (scopes : Scopes)
    (name : String) :
    scopes.unaliasedCommands name =
      ((visibleModules scopes).filter fun entry =>
        entry.1 != Script.standardName &&
          (scopes.aliasTarget? entry.1).isNone).filterMap
        (commandOf? name) := by
  unfold unaliasedCommands
  rw [visible_module, List.filter_map, List.filterMap_map]
  apply List.filterMap_congr
  intro entry _
  exact ofBinding?_ofModule entry.1 entry.2 name

/-- A module in scope has the rank of its key. -/
theorem mem_modulesOfRank_iff
    {scopes : Scopes}
    (distinct : scopes.AreDistinct)
    {rank : ModuleRank}
    {key : String}
    {module : Module} :
    (key, module) ∈ modulesOfRank scopes rank ↔
      scopes.module? key = some module ∧ moduleRank scopes key = rank := by
  rw [modulesOfRank, List.mem_filter, mem_visibleModules_iff distinct]
  simp

/-- Whether the commands of the module under a key are written behind the key. -/
def isQualified
    (scopes : Scopes)
    (key : String) : Bool :=
  moduleRank scopes key = .other && (scopes.aliasTarget? key).isSome

theorem commandLabel_of_qualified
    {scopes : Scopes}
    {key : String}
    (qualified : isQualified scopes key = true)
    (name : String) :
    commandLabel scopes key name = key ++ ":" ++ name :=
  if_pos qualified

theorem commandLabel_of_plain
    {scopes : Scopes}
    {key : String}
    (plain : isQualified scopes key = false)
    (name : String) :
    commandLabel scopes key name = name :=
  if_neg (Bool.eq_false_iff.mp plain)

theorem isQualified_of_close
    {scopes : Scopes}
    {key : String}
    (close : moduleRank scopes key ≠ .other) :
    isQualified scopes key = false := by
  simp [isQualified, close]

/-- Whether a command of the module is offered with this label. -/
def writes
    (scopes : Scopes)
    (label : String)
    (entry : String × Module) : Bool :=
  entry.2.commands.any fun command =>
    commandLabel scopes entry.1 command.name == label

/-- A module without qualifier offers what it has under the name. -/
theorem writes_of_plain
    {scopes : Scopes}
    {entry : String × Module}
    (plain : isQualified scopes entry.1 = false)
    (name : String) :
    writes scopes name entry = (commandOf? name entry).isSome := by
  simp only [writes, commandLabel_of_plain plain, commandOf?, Option.isSome_map,
    Module.command?, Keyed.find?, List.isSome_find?]

/-- Among the items of several sources, the first one with a label comes from the first
source that has an entry with this label. -/
theorem find?_flatMap_ofLabel
    {Source Entry : Type}
    (entries : Source → List Entry)
    (labelOf : Source → Entry → String)
    (detail : Source → Option String)
    (kind : ItemKind)
    (range : Span)
    (label : String)
    (sources : List Source) :
    Keyed.find? Item.label label
        (sources.flatMap fun source =>
          (entries source).map fun entry =>
            .ofLabel (labelOf source entry) kind range (detail source)) =
      (sources.find? fun source =>
          (entries source).any fun entry => labelOf source entry == label).map
        fun source => .ofLabel label kind range (detail source) := by
  have inSource
      (source : Source)
      (own : List Entry) :
      Keyed.find? Item.label label
          (own.map fun entry =>
            .ofLabel (labelOf source entry) kind range (detail source)) =
        if own.any fun entry => labelOf source entry == label then
          some (.ofLabel label kind range (detail source))
        else
          none := by
    induction own with
    | nil =>
        rfl
    | cons entry rest inductionHypothesis =>
        by_cases isLabel : labelOf source entry = label
        · simp [Keyed.find?, isLabel, Item.ofLabel]
        · simpa [Keyed.find?, isLabel, Item.ofLabel] using inductionHypothesis
  induction sources with
  | nil =>
      rfl
  | cons source rest inductionHypothesis =>
      rw [List.flatMap_cons, Keyed.find?_append, inSource, inductionHypothesis,
        List.find?_cons]
      cases (entries source).any fun entry => labelOf source entry == label <;>
        rfl

/-- The item with a label comes from the first module that offers the label. -/
theorem mem_commandItems_iff
    {scopes : Scopes}
    {range : Span}
    {item : Item} :
    item ∈ commandItems scopes range ↔
      ∃ entry,
        (rankedModules scopes).find? (writes scopes item.label) = some entry ∧
          .ofLabel item.label .command range (some entry.2.name) = item := by
  have listed :=
    find?_flatMap_ofLabel (fun entry : String × Module => entry.2.commands)
      (fun entry command => commandLabel scopes entry.1 command.name)
      (fun entry => some entry.2.name) .command range item.label
      (rankedModules scopes)
  rw [commandItems, Keyed.mem_distinctBy_iff, ← Option.map_eq_some_iff]
  exact Eq.congr_left listed

/-!
## The order in which a plain name is sought
-/

/-- The module of the enclosing block and the standard one. -/
def closeModules (scopes : Scopes) : List (String × Module) :=
  modulesOfRank scopes .enclosing ++ modulesOfRank scopes .standard

theorem rankedModules_eq (scopes : Scopes) :
    rankedModules scopes =
      closeModules scopes ++ modulesOfRank scopes .other :=
  rfl

theorem moduleRank_eq_enclosing_iff
    {scopes : Scopes}
    {key : String} :
    moduleRank scopes key = .enclosing ↔ scopes.context? = some key := by
  by_cases isContext : scopes.context? = some key
  · simp [moduleRank, isContext]
  · by_cases isStandard : key = Script.standardName <;>
      simp [moduleRank, isContext, isStandard]

theorem moduleRank_eq_standard_iff
    {scopes : Scopes}
    {key : String} :
    moduleRank scopes key = .standard ↔
      scopes.context? ≠ some key ∧ key = Script.standardName := by
  by_cases isContext : scopes.context? = some key
  · simp [moduleRank, isContext]
  · by_cases isStandard : key = Script.standardName
    · subst isStandard
      simp [moduleRank, isContext]
    · simp [moduleRank, isContext, isStandard]

theorem moduleRank_eq_other_iff
    {scopes : Scopes}
    {key : String} :
    moduleRank scopes key = .other ↔
      scopes.context? ≠ some key ∧ key ≠ Script.standardName := by
  by_cases isContext : scopes.context? = some key
  · simp [moduleRank, isContext]
  · by_cases isStandard : key = Script.standardName
    · subst isStandard
      simp [moduleRank, isContext]
    · simp [moduleRank, isContext, isStandard]

/-- A rank that no key has is empty. -/
theorem modulesOfRank_eq_nil
    {scopes : Scopes}
    {rank : ModuleRank}
    (noKey : ∀ key, moduleRank scopes key ≠ rank) :
    modulesOfRank scopes rank = [] := by
  simp [modulesOfRank, noKey]

/-- A rank that one key has is the module under this key. -/
theorem findSome?_modulesOfRank
    {scopes : Scopes}
    (distinct : scopes.AreDistinct)
    {rank : ModuleRank}
    {key : String}
    (onlyKey : ∀ own, moduleRank scopes own = rank ↔ own = key)
    (name : String) :
    (modulesOfRank scopes rank).findSome? (commandOf? name) =
      scopes.commandUnder? key name := by
  have isMember
      (own : String)
      (module : Module) :
      (own, module) ∈ modulesOfRank scopes rank ↔
        scopes.module? key = some module ∧ own = key := by
    rw [mem_modulesOfRank_iff distinct, onlyKey]
    constructor <;>
      rintro ⟨found, rfl⟩ <;>
      exact ⟨found, rfl⟩
  apply Option.ext
  intro resolved
  rw [commandUnder?_eq, Option.bind_eq_some_iff]
  constructor
  · intro found
    obtain ⟨⟨own, module⟩, member, isCommand⟩ :=
      List.exists_of_findSome?_eq_some found
    obtain ⟨isModule, rfl⟩ := (isMember own module).mp member
    exact ⟨module, isModule, isCommand⟩
  · rintro ⟨module, isModule, isCommand⟩
    have member := (isMember key module).mpr ⟨isModule, rfl⟩
    cases found : (modulesOfRank scopes rank).findSome? (commandOf? name) with
    | none =>
        rw [List.findSome?_eq_none_iff] at found
        rw [found _ member] at isCommand
        cases isCommand
    | some own =>
        obtain ⟨⟨ownKey, ownModule⟩, isOwn, isFound⟩ :=
          List.exists_of_findSome?_eq_some found
        obtain ⟨sameModule, rfl⟩ := (isMember ownKey ownModule).mp isOwn
        rw [isModule, Option.some.injEq] at sameModule
        subst ownModule
        exact isFound.symm.trans isCommand

/-- A plain name is sought in the close modules before all others. -/
theorem preferred_eq
    {scopes : Scopes}
    (distinct : scopes.AreDistinct)
    (name : String) :
    (scopes.context?.bind fun key => scopes.commandUnder? key name).or
        (scopes.commandUnder? Script.standardName name) =
      (closeModules scopes).findSome? (commandOf? name) := by
  rw [closeModules, List.findSome?_append]
  by_cases isContext : scopes.context? = some Script.standardName
  · -- The standard module encloses the block and is not sought twice.
    have noStandard : modulesOfRank scopes .standard = [] := by
      apply modulesOfRank_eq_nil
      intro key isRank
      obtain ⟨notContext, rfl⟩ := moduleRank_eq_standard_iff.mp isRank
      exact notContext isContext
    have onlyContext (own : String) :
        moduleRank scopes own = .enclosing ↔ own = Script.standardName := by
      rw [moduleRank_eq_enclosing_iff, isContext, Option.some.injEq]
      exact eq_comm
    rw [noStandard, findSome?_modulesOfRank distinct onlyContext, isContext]
    simp
  · have onlyStandard (own : String) :
        moduleRank scopes own = .standard ↔ own = Script.standardName := by
      rw [moduleRank_eq_standard_iff]
      constructor
      · exact And.right
      · rintro rfl
        exact ⟨isContext, rfl⟩
    rw [findSome?_modulesOfRank distinct onlyStandard]
    congr 1
    cases context : scopes.context? with
    | none =>
        have noEnclosing : modulesOfRank scopes .enclosing = [] := by
          apply modulesOfRank_eq_nil
          intro key isRank
          rw [moduleRank_eq_enclosing_iff, context] at isRank
          cases isRank
        rw [noEnclosing]
        rfl
    | some key =>
        have onlyContext (own : String) :
            moduleRank scopes own = .enclosing ↔ own = key := by
          rw [moduleRank_eq_enclosing_iff, context, Option.some.injEq]
          exact eq_comm
        rw [findSome?_modulesOfRank distinct onlyContext]
        rfl

theorem plain_of_mem_closeModules
    {scopes : Scopes}
    (distinct : scopes.AreDistinct)
    {entry : String × Module}
    (member : entry ∈ closeModules scopes) :
    scopes.module? entry.1 = some entry.2 ∧
      isQualified scopes entry.1 = false := by
  have isClose
      {rank : ModuleRank}
      (notOther : rank ≠ .other)
      (ofRank : entry ∈ modulesOfRank scopes rank) :
      scopes.module? entry.1 = some entry.2 ∧
        isQualified scopes entry.1 = false := by
    obtain ⟨isModule, isRank⟩ := (mem_modulesOfRank_iff distinct).mp ofRank
    exact ⟨isModule, isQualified_of_close (isRank ▸ notOther)⟩
  rcases List.mem_append.mp member with isEnclosing | isStandard
  · exact isClose (by simp) isEnclosing
  · exact isClose (by simp) isStandard

/-- The first close module that offers a label is the one that the name belongs
to. -/
theorem findSome?_closeModules
    {scopes : Scopes}
    (distinct : scopes.AreDistinct)
    (name : String) :
    (closeModules scopes).findSome? (commandOf? name) =
      ((closeModules scopes).find? (writes scopes name)).bind
        (commandOf? name) := by
  have sameTest :
      ∀ entry ∈ closeModules scopes,
        writes scopes name entry = (commandOf? name entry).isSome :=
    fun entry member =>
      writes_of_plain (plain_of_mem_closeModules distinct member).2 name
  generalize closeModules scopes = entries at sameTest
  induction entries with
  | nil =>
      rfl
  | cons entry rest inductionHypothesis =>
      rw [List.forall_mem_cons] at sameTest
      rw [List.findSome?_cons, List.find?_cons, sameTest.1,
        inductionHypothesis sameTest.2]
      cases found : commandOf? name entry <;>
        simp [found]

/-- The other modules without alias, in the order of their bindings. -/
def plainModules (scopes : Scopes) : List (String × Module) :=
  (modulesOfRank scopes .other).filter fun entry =>
    !isQualified scopes entry.1

/-- Where no close module has a name, it is sought in the others without alias. -/
theorem unaliasedCommands_of_not_close
    {scopes : Scopes}
    {name : String}
    (notClose : (closeModules scopes).findSome? (commandOf? name) = none) :
    scopes.unaliasedCommands name =
      (plainModules scopes).filterMap (commandOf? name) := by
  rw [List.findSome?_eq_none_iff] at notClose
  rw [unaliasedCommands_eq, plainModules, modulesOfRank, List.filter_filter,
    List.filterMap_filter, List.filterMap_filter]
  -- Only close modules are on one side alone, and they do not have the name.
  apply List.filterMap_congr
  rintro ⟨key, module⟩ member
  cases rank : moduleRank scopes key with
  | other =>
      have notStandard := (moduleRank_eq_other_iff.mp rank).2
      simp [isQualified, rank, notStandard]
  | enclosing | standard =>
      have isClose : (key, module) ∈ closeModules scopes := by
        simp [closeModules, modulesOfRank, member, rank]
      simp [notClose _ isClose]

/-- A name that a close module offers belongs to it. -/
theorem resolve_of_close
    {scopes : Scopes}
    (distinct : scopes.AreDistinct)
    {name : String}
    {entry : String × Module}
    (first : (closeModules scopes).find? (writes scopes name) = some entry) :
    ∃ command,
      scopes.resolve none name = .ok ⟨entry.1, entry.2, command⟩ := by
  have member := List.mem_of_find?_eq_some first
  have written := List.find?_some first
  rw [writes_of_plain (plain_of_mem_closeModules distinct member).2] at written
  obtain ⟨resolved, isCommand⟩ := Option.isSome_iff_exists.mp written
  have preferred :
      (closeModules scopes).findSome? (commandOf? name) = some resolved := by
    rw [findSome?_closeModules distinct, first, Option.bind_some, isCommand]
  obtain ⟨isEntry, -⟩ := commandOf?_eq_some_iff.mp isCommand
  refine ⟨resolved.command, ?_⟩
  rw [isEntry]
  simp only [resolve, resolvePlain, preferred_eq distinct, preferred]

/-- A name that no close module offers belongs to the only other module without
alias that has it. -/
theorem resolve_of_not_close
    {scopes : Scopes}
    (distinct : scopes.AreDistinct)
    {name : String}
    (notClose : (closeModules scopes).find? (writes scopes name) = none) :
    scopes.resolve none name =
      match (plainModules scopes).filterMap (commandOf? name) with
      | [] =>
          .error (.unknownCommand name)
      | [resolved] =>
          .ok resolved
      | candidates =>
          .error
            (.ambiguousCommand name (candidates.map ResolvedCommand.key)) := by
  have notPreferred :
      (closeModules scopes).findSome? (commandOf? name) = none := by
    rw [findSome?_closeModules distinct, notClose, Option.bind_none]
  rw [← unaliasedCommands_of_not_close notPreferred]
  dsimp only [resolve, resolvePlain]
  rewrite [preferred_eq distinct, notPreferred]
  rfl

/-!
## What an item stands for
-/

/-- How the label of an item is resolved, if it offers a command of the module under
a key. -/
inductive Item.StandsFor
    (scopes : Scopes)
    (item : Item)
    (key : String)
    (module : Module)
    (name : String) : Prop where
  /-- The label has the key in front, and the name behind it is found there. -/
  | qualified {command : CommandEntry} :
      isQualified scopes key = true →
      item.label = key ++ ":" ++ name →
      scopes.resolve (some key) name = .ok ⟨key, module, command⟩ →
      item.StandsFor scopes key module name
  /-- The label is the name, which belongs to the module. -/
  | plain {command : CommandEntry} :
      isQualified scopes key = false →
      item.label = name →
      scopes.resolve none name = .ok ⟨key, module, command⟩ →
      item.StandsFor scopes key module name
  /-- The label is the name, and the module is the first of several that have it. -/
  | ambiguous {others : List String} :
      isQualified scopes key = false →
      item.label = name →
      scopes.resolve none name =
        .error (.ambiguousCommand name (key :: others)) →
      item.StandsFor scopes key module name

/-- The first other module that offers a name without qualifier is the first one in
which the name is sought. -/
theorem candidates_of_first
    {scopes : Scopes}
    {name key : String}
    {module : Module}
    (first :
      (modulesOfRank scopes .other).find? (writes scopes name) =
        some (key, module))
    (plain : isQualified scopes key = false) :
    ∃ command others,
      (plainModules scopes).filterMap (commandOf? name) =
        ⟨key, module, command⟩ :: others := by
  obtain ⟨written, before, behind, split, notBefore⟩ :=
    List.find?_eq_some_iff_append.mp first
  rw [writes_of_plain plain] at written
  obtain ⟨resolved, isCommand⟩ := Option.isSome_iff_exists.mp written
  -- An earlier module may offer other labels behind its alias; without alias it
  -- would offer the name itself.
  have noneBefore :
      (before.filter fun entry => !isQualified scopes entry.1).filterMap
          (commandOf? name) = [] := by
    rw [List.filterMap_eq_nil_iff]
    intro entry member
    obtain ⟨isBefore, isPlain⟩ := List.mem_filter.mp member
    have notWritten := notBefore entry isBefore
    rw [writes_of_plain (by simpa using isPlain)] at notWritten
    simpa using notWritten
  obtain ⟨isEntry, -⟩ := commandOf?_eq_some_iff.mp isCommand
  cases isEntry
  refine
    ⟨resolved.command,
      (behind.filter fun entry => !isQualified scopes entry.1).filterMap
        (commandOf? name), ?_⟩
  rw [plainModules, split, List.filter_append, List.filterMap_append, noneBefore,
    List.nil_append, List.filter_cons_of_pos (by simp [plain]),
    List.filterMap_cons, isCommand]

/-- Every item stands for a command of a module in scope. -/
theorem standsFor_of_mem
    {scopes : Scopes}
    (distinct : scopes.AreDistinct)
    {range : Span}
    {item : Item}
    (member : item ∈ commandItems scopes range) :
    ∃ key module,
      scopes.module? key = some module ∧
        item.detail = some module.name ∧
        ∃ command ∈ module.commands,
          item.StandsFor scopes key module command.name := by
  obtain ⟨⟨key, module⟩, first, isItem⟩ := mem_commandItems_iff.mp member
  have detail : item.detail = some module.name := by
    rw [← isItem]
    rfl
  have written : writes scopes item.label (key, module) = true :=
    List.find?_some first
  obtain ⟨command, isCommand, isLabel⟩ := List.any_eq_true.mp written
  rw [beq_iff_eq] at isLabel
  rw [rankedModules_eq, List.find?_append, Option.or_eq_some_iff] at first
  rcases first with isClose | ⟨notClose, isOther⟩
  · obtain ⟨isModule, plain⟩ :=
      plain_of_mem_closeModules distinct (List.mem_of_find?_eq_some isClose)
    rw [commandLabel_of_plain plain] at isLabel
    obtain ⟨found, resolved⟩ := resolve_of_close distinct isClose
    rw [← isLabel] at resolved
    exact ⟨key, module, isModule, detail, command, isCommand,
      .plain plain isLabel.symm resolved⟩
  · obtain ⟨isModule, -⟩ :=
      (mem_modulesOfRank_iff distinct).mp (List.mem_of_find?_eq_some isOther)
    refine ⟨key, module, isModule, detail, command, isCommand, ?_⟩
    cases qualified : isQualified scopes key with
    | true =>
        rw [commandLabel_of_qualified qualified] at isLabel
        obtain ⟨found, isFound⟩ := Module.exists_command?_of_mem isCommand
        have resolved :
            scopes.resolve (some key) command.name =
              .ok ⟨key, module, found⟩ := by
          rw [resolve_some_eq_ok_iff, commandUnder?_eq, isModule,
            Option.bind_some, commandOf?_eq_some_iff]
          exact ⟨rfl, isFound⟩
        exact .qualified qualified isLabel.symm resolved
    | false =>
        rw [commandLabel_of_plain qualified] at isLabel
        obtain ⟨found, others, candidates⟩ :=
          candidates_of_first isOther qualified
        have resolved := resolve_of_not_close distinct notClose
        rw [candidates, ← isLabel] at resolved
        cases others with
        | nil =>
            exact .plain qualified isLabel.symm resolved
        | cons second rest =>
            exact .ambiguous qualified isLabel.symm resolved

/-- A label with a qualifier has a colon. -/
theorem colon_of_qualified
    {scopes : Scopes}
    {label : String}
    {entry : String × Module}
    (qualified : isQualified scopes entry.1 = true)
    (written : writes scopes label entry = true) :
    ':' ∈ label.toList := by
  obtain ⟨command, -, isLabel⟩ := List.any_eq_true.mp written
  rw [beq_iff_eq, commandLabel_of_qualified qualified] at isLabel
  rw [← isLabel]
  simp

/-- A plain name that resolves is offered with the module that it belongs to. -/
theorem offered_of_resolve_none
    {scopes : Scopes}
    (distinct : scopes.AreDistinct)
    {name : String}
    (noColon : ':' ∉ name.toList)
    {resolved : ResolvedCommand}
    (found : scopes.resolve none name = .ok resolved) :
    (rankedModules scopes).find? (writes scopes name) =
      some (resolved.key, resolved.module) := by
  rw [rankedModules_eq, List.find?_append]
  cases isClose : (closeModules scopes).find? (writes scopes name) with
  | some entry =>
      obtain ⟨command, isResolved⟩ := resolve_of_close distinct isClose
      rw [isResolved, Except.ok.injEq] at found
      subst resolved
      rfl
  | none =>
      have onlyOne :
          (plainModules scopes).filterMap (commandOf? name) = [resolved] := by
        rw [resolve_of_not_close distinct isClose] at found
        split at found
        · cases found
        · cases found
          assumption
        · cases found
      rw [Option.none_or]
      cases isOther : (modulesOfRank scopes .other).find? (writes scopes name) with
      | none =>
          obtain ⟨entry, isPlain, isCommand⟩ :=
            List.mem_filterMap.mp (onlyOne ▸ List.mem_singleton_self resolved)
          obtain ⟨ofRank, plain⟩ := List.mem_filter.mp isPlain
          have written : writes scopes name entry = true := by
            rw [writes_of_plain (by simpa using plain), isCommand]
            rfl
          exact absurd written (List.find?_eq_none.mp isOther entry ofRank)
      | some entry =>
          have plain : isQualified scopes entry.1 = false := by
            cases qualified : isQualified scopes entry.1 with
            | true =>
                exact absurd
                  (colon_of_qualified qualified (List.find?_some isOther))
                  noColon
            | false =>
                rfl
          obtain ⟨command, others, candidates⟩ :=
            candidates_of_first isOther plain
          rw [onlyOne] at candidates
          cases candidates
          rfl

/-- A qualified name that resolves is offered where it needs its qualifier. -/
theorem offered_of_resolve_some
    {scopes : Scopes}
    (distinct : scopes.AreDistinct)
    {key name : String}
    (qualified : isQualified scopes key = true)
    {resolved : ResolvedCommand}
    (found : scopes.resolve (some key) name = .ok resolved) :
    ∃ entry,
      (rankedModules scopes).find? (writes scopes (key ++ ":" ++ name)) =
        some entry := by
  have isOther : moduleRank scopes key = .other := by
    simp only [isQualified, Bool.and_eq_true, decide_eq_true_eq] at qualified
    exact qualified.1
  rw [resolve_some_eq_ok_iff, commandUnder?_eq,
    Option.bind_eq_some_iff] at found
  obtain ⟨module, isModule, isCommand⟩ := found
  obtain ⟨-, inModule⟩ := commandOf?_eq_some_iff.mp isCommand
  have hasName : resolved.command.name = name := by
    simpa using List.find?_some inModule
  have ofRank : (key, module) ∈ modulesOfRank scopes .other :=
    (mem_modulesOfRank_iff distinct).mpr ⟨isModule, isOther⟩
  have written : writes scopes (key ++ ":" ++ name) (key, module) = true := by
    refine List.any_eq_true.mpr
      ⟨resolved.command, List.mem_of_find?_eq_some inModule, ?_⟩
    rw [beq_iff_eq, commandLabel_of_qualified qualified, hasName]
  apply Option.isSome_iff_exists.mp
  rw [List.find?_isSome]
  exact ⟨(key, module), List.mem_append_right _ ofRank, written⟩

/--
What is offered is what resolves, in all scopes that can be built.  No two items
have one label.  Every item comes from a module that can be seen under a key and
one of its commands: behind the key it resolves to this module, and without it, it
resolves to this module or is ambiguous with this module first.  The other way
round, every plain name without a colon that resolves is offered for the module it
belongs to, and every name behind an alias that resolves is offered with it, except
for the standard module and the one of the enclosing block.
-/
theorem suggestions_agree_with_resolution
    {scopes : Scopes}
    (built : scopes.IsBuilt)
    (range : Span) :
    ((commandItems scopes range).map Item.label).Nodup ∧
      (∀ item ∈ commandItems scopes range,
        ∃ key module,
          .ofModule key module ∈ scopes.visible .module ∧
            item.detail = some module.name ∧
            ∃ command ∈ module.commands,
              item.StandsFor scopes key module command.name) ∧
      (∀ name resolved,
        ':' ∉ name.toList →
        scopes.resolve none name = .ok resolved →
        ∃ item ∈ commandItems scopes range,
          item.label = name ∧ item.detail = some resolved.module.name) ∧
      ∀ key name resolved,
        key ≠ Script.standardName →
        scopes.context? ≠ some key →
        (scopes.lookup .alias key).isSome = true →
        scopes.resolve (some key) name = .ok resolved →
        ∃ item ∈ commandItems scopes range,
          item.label = key ++ ":" ++ name := by
  have distinct := built.areDistinct
  have offered
      {label : String}
      {entry : String × Module}
      (first :
        (rankedModules scopes).find? (writes scopes label) = some entry) :
      Item.ofLabel label .command range (some entry.2.name) ∈
        commandItems scopes range :=
    mem_commandItems_iff.mpr ⟨entry, first, rfl⟩
  refine ⟨Keyed.nodup_distinctBy _ _, ?_, ?_, ?_⟩
  · intro item member
    obtain ⟨key, module, isModule, standsFor⟩ :=
      standsFor_of_mem distinct member
    refine ⟨key, module, ?_, standsFor⟩
    rw [mem_visible_iff_lookup distinct, lookup_module]
    exact Option.map_eq_some_iff.mpr ⟨module, isModule, rfl⟩
  · intro name resolved noColon found
    have first := offered_of_resolve_none distinct noColon found
    exact ⟨_, offered first, rfl, rfl⟩
  · intro key name resolved notStandard notContext hasAlias found
    have qualified : isQualified scopes key = true := by
      rw [← isSome_aliasTarget?] at hasAlias
      simp [isQualified, hasAlias,
        moduleRank_eq_other_iff.mpr ⟨notContext, notStandard⟩]
    obtain ⟨entry, first⟩ := offered_of_resolve_some distinct qualified found
    exact ⟨_, offered first, rfl⟩

theorem suggestions_agree_with_resolution_inside_block :
    let plain (name : String) : CommandEntry := .plain name ""
    let standard := (Module.named "std").withCommand (plain "set")
    let voting := (Module.named "voting").withCommand (plain "vote")
    let finance := ((Module.named "finance").withCommand (plain "vote")).withCommand
      (plain "pay")
    let agent := (Module.named "agent").withCommand (plain "pay")
    let scopes :=
      (Scopes.root.bindAll
        [.ofModule "std" standard, .ofModule "voting" voting,
          .ofModule "finance" finance, .ofModule "a" agent,
          .ofAlias "a" "agent", .ofModule "b" agent,
          .ofAlias "b" "agent"]).enter (some "a")
    let range : Span := ⟨⟨0, 0⟩, ⟨0, 0⟩⟩
    let items := commandItems scopes range
    scopes.IsBuilt ∧
      items.map Item.label = ["pay", "set", "vote", "b:pay"] ∧
      (items.map Item.label).Nodup ∧
      (∀ item ∈ items,
        ∃ key module,
          .ofModule key module ∈ scopes.visible .module ∧
            item.detail = some module.name ∧
            ∃ command ∈ module.commands,
              item.StandsFor scopes key module command.name) ∧
      (∃ item ∈ items, item.label = "pay" ∧ item.detail = some "agent") ∧
      ∃ item ∈ items, item.label = "b:pay" := by
  intro plain standard voting finance agent scopes range items
  have built : scopes.IsBuilt := .enter (.bindAll .root _) _
  obtain ⟨nodup, standsFor, plainOffered, qualifiedOffered⟩ :=
    suggestions_agree_with_resolution built range
  have labels : items.map Item.label = ["pay", "set", "vote", "b:pay"] := by
    decide +kernel
  refine ⟨built, labels, nodup, standsFor, ?_, ?_⟩
  · exact plainOffered "pay" ⟨"a", agent, plain "pay"⟩ (by decide +kernel) rfl
  · exact qualifiedOffered "b" "pay" ⟨"b", agent, plain "pay"⟩
      (by decide +kernel) (by decide +kernel) (by decide +kernel) rfl

end Suggestion

end ScriptCompletion
