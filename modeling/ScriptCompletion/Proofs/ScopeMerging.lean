import ScriptCompletion.Proofs.InsertionOrder

namespace ScriptCompletion

/-!
# Merging scopes

Merging copies the bindings of all frames of other scopes into the innermost frame, those
of the root frame first.  Of several bindings of a name the one copied last stays, and
that is the one that the name stands for in the other scopes.  So for the lookup of names
the other scopes are put in front, although their frames are not kept apart.
-/

theorem ScopeOperation.areDistinct_build (operations : List ScopeOperation) :
    (build operations).AreDistinct := by
  have nothingBound : InsertionLog.initial.Describes .root := rfl
  exact (nothingBound.foldl_after operations).areDistinct

namespace Scopes

variable {scopes other : Scopes}

/-- Names are sought in the innermost frame first. -/
theorem lookup_eq_or
    (scopes : Scopes)
    (space : Space)
    (name : String) :
    scopes.lookup space name =
      (scopes.innermost.find? space name).or
        (scopes.outer.findSome? fun frame => frame.find? space name) := by
  rw [lookup, frames, List.findSome?_cons]
  cases scopes.innermost.find? space name with
  | none =>
      rfl
  | some binding =>
      rfl

theorem lookup_bindAll
    (scopes : Scopes)
    (added : List Binding)
    (space : Space)
    (name : String) :
    (scopes.bindAll added).lookup space name =
      (Keyed.find? Binding.key (space, name) added.reverse).or
        (scopes.lookup space name) := by
  rw [lookup_eq_or, bindAll_eq, Frame.find?_bindAll, Option.or_assoc,
    ← lookup_eq_or]

/-- What a name stands for in the other scopes comes first. -/
theorem lookup_merge
    (distinct : other.AreDistinct)
    (scopes : Scopes)
    (space : Space)
    (name : String) :
    (scopes.merge other).lookup space name =
      (other.lookup space name).or (scopes.lookup space name) := by
  rw [merge, lookup_bindAll, find?_reverse_bindings distinct]

theorem map_context_bindAll
    (scopes : Scopes)
    (added : List Binding) :
    (scopes.bindAll added).frames.map Frame.context =
      scopes.frames.map Frame.context := by
  rw [frames_bindAll]
  rfl

/-- Bindings that were just added can be added again. -/
theorem bindAll_bindAll
    (distinct : scopes.AreDistinct)
    (added : List Binding) :
    (scopes.bindAll added).bindAll added = scopes.bindAll added := by
  have innermost : (scopes.innermost.bindings.map Binding.key).Nodup :=
    distinct scopes.innermost List.mem_cons_self
  have again :
      (scopes.innermost.bindAll added).bindAll added =
        scopes.innermost.bindAll added := by
    simp only [Frame.bindAll, Keyed.putAll_putAll innermost added]
  rw [bindAll_eq (scopes.bindAll added), bindAll_eq scopes, again]

/--
Merging overrides.  For any two scopes that operations can build, a name stands in the
merged ones for what it stands for in those that were merged in, if they have it, and
else for what it stood for before.  The depth, the modules of the frames and all frames
around the innermost one are what they were, and merging the same scopes in once more
changes nothing.
-/
theorem merge_overrides (operations otherOperations : List ScopeOperation) :
    let scopes := ScopeOperation.build operations
    let other := ScopeOperation.build otherOperations
    let merged := scopes.merge other
    (∀ space name,
      merged.lookup space name =
        (other.lookup space name).or (scopes.lookup space name)) ∧
      merged.depth = scopes.depth ∧
      merged.frames.map Frame.context = scopes.frames.map Frame.context ∧
      merged.outer = scopes.outer ∧
      merged.merge other = merged := by
  intro scopes other merged
  have sameOuter : merged.outer = scopes.outer :=
    outer_bindAll scopes other.bindings
  refine ⟨?_, congrArg List.length sameOuter,
    map_context_bindAll scopes other.bindings, sameOuter, ?_⟩
  · exact lookup_merge (ScopeOperation.areDistinct_build otherOperations) scopes
  · exact bindAll_bindAll (ScopeOperation.areDistinct_build operations)
      other.bindings

example :
    let other :=
      ScopeOperation.build
        [.bind (.ofVariable "$a" "1"), .bind (.ofVariable "$b" "2"),
          .enter none, .bind (.ofVariable "$a" "3")]
    let merged :=
      ScopeOperation.build
        [.bind (.ofVariable "$c" "4"), .enter none,
          .bind (.ofVariable "$b" "5"), .merge other]
    (["$a", "$b", "$c"].map merged.variableText?) =
        [some "3", some "2", some "4"] ∧
      merged.visibleNames .variable = ["$c", "$b", "$a"] := by
  decide

end Scopes

end ScriptCompletion
