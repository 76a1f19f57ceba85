import Mathlib.Data.List.Nodup
import ScriptCompletion.Keyed

namespace ScriptCompletion.Keyed

/-!
# What is found under a key

Items are put one after another, and the last one put under a key is found there;
or the first item of every key is kept, and it is found there.  In both cases no
two items share a key, so what is found under its key is what is in the list.
-/

variable {Item Key : Type} [DecidableEq Key]

@[simp]
theorem find?_nil
    (key : Item → Key)
    (wanted : Key) :
    find? key wanted [] = none :=
  rfl

theorem find?_append
    (key : Item → Key)
    (wanted : Key)
    (first second : List Item) :
    find? key wanted (first ++ second) =
      (find? key wanted first).or (find? key wanted second) :=
  List.find?_append

/-- A test that holds of the items with a key finds the one with the key. -/
theorem find?_of_iff
    {key : Item → Key}
    {wanted : Key}
    {holds : Item → Bool}
    (same : ∀ item, holds item = true ↔ key item = wanted)
    (items : List Item) :
    items.find? holds = find? key wanted items := by
  have sameTest : holds = fun item => key item == wanted := by
    funext item
    rw [Bool.eq_iff_iff, same, beq_iff_eq]
  rw [sameTest, find?]

/-- Where no two items share a key, an item is found under its key. -/
theorem find?_eq_some_iff
    {key : Item → Key}
    {items : List Item}
    (distinct : (items.map key).Nodup)
    {wanted : Key}
    {item : Item} :
    find? key wanted items = some item ↔ item ∈ items ∧ key item = wanted := by
  constructor
  · intro found
    exact ⟨List.mem_of_find?_eq_some found, by simpa using List.find?_some found⟩
  · rintro ⟨member, rfl⟩
    obtain ⟨found, isFound⟩ : ∃ found, find? key (key item) items = some found := by
      apply Option.isSome_iff_exists.mp
      rw [find?, List.find?_isSome]
      exact ⟨item, member, by simp⟩
    have sameKey : key found = key item := by
      simpa using List.find?_some isFound
    have sameItem : found = item :=
      List.inj_on_of_nodup_map distinct (List.mem_of_find?_eq_some isFound)
        member sameKey
    rw [isFound, sameItem]

/-- Putting goes along with a map that keeps the keys. -/
theorem map_put
    {Image : Type}
    (image : Item → Image)
    (key : Image → Key)
    (item : Item)
    (items : List Item) :
    (put (fun item => key (image item)) item items).map image =
      put key (image item) (items.map image) := by
  induction items with
  | nil =>
      rfl
  | cons first rest inductionHypothesis =>
      by_cases sameKey : key (image first) = key (image item)
      · simp [put, sameKey]
      · simp [put, sameKey, inductionHypothesis]

theorem map_putAll
    {Image : Type}
    (image : Item → Image)
    (key : Image → Key)
    (items added : List Item) :
    (putAll (fun item => key (image item)) items added).map image =
      putAll key (items.map image) (added.map image) := by
  induction added generalizing items with
  | nil =>
      rfl
  | cons item rest inductionHypothesis =>
      have putThen := inductionHypothesis
        (put (fun item => key (image item)) item items)
      rw [map_put] at putThen
      exact putThen

/-- Putting an item does not touch those that are kept if its key is not. -/
theorem filter_put
    {key : Item → Key}
    {keep : Key → Bool}
    {item : Item}
    (dropped : keep (key item) = false)
    (items : List Item) :
    (put key item items).filter (fun other => keep (key other)) =
      items.filter fun other => keep (key other) := by
  induction items with
  | nil =>
      simp [put, dropped]
  | cons first rest inductionHypothesis =>
      by_cases sameKey : key first = key item
      · simp [put, sameKey, dropped]
      · simp [put, sameKey, List.filter_cons, inductionHypothesis]

theorem filter_putAll
    {key : Item → Key}
    {keep : Key → Bool}
    {added : List Item}
    (dropped : ∀ item ∈ added, keep (key item) = false)
    (items : List Item) :
    (putAll key items added).filter (fun other => keep (key other)) =
      items.filter fun other => keep (key other) := by
  induction added generalizing items with
  | nil =>
      rfl
  | cons item rest inductionHypothesis =>
      rw [List.forall_mem_cons] at dropped
      exact (inductionHypothesis dropped.2 _).trans (filter_put dropped.1 items)

/-- Putting an item keeps the keys distinct. -/
theorem nodup_put
    {key : Item → Key}
    {items : List Item}
    (distinct : (items.map key).Nodup)
    (item : Item) :
    ((put key item items).map key).Nodup := by
  rw [map_key_put]
  split
  · exact distinct
  · rename_i isNew
    rw [List.nodup_append]
    refine ⟨distinct, by simp, ?_⟩
    intro present isPresent new isItem same
    rw [List.mem_singleton] at isItem
    exact isNew (isItem ▸ same ▸ isPresent)

theorem nodup_putAll
    {key : Item → Key}
    {items : List Item}
    (distinct : (items.map key).Nodup)
    (added : List Item) :
    ((putAll key items added).map key).Nodup := by
  induction added generalizing items with
  | nil =>
      exact distinct
  | cons item rest inductionHypothesis =>
      exact inductionHypothesis (nodup_put distinct item)

/-- An item with a new key is put at the end. -/
theorem put_of_new
    {key : Item → Key}
    {item : Item}
    {items : List Item}
    (isNew : ∀ present ∈ items, key present ≠ key item) :
    put key item items = items ++ [item] := by
  induction items with
  | nil =>
      rfl
  | cons first rest inductionHypothesis =>
      rw [List.forall_mem_cons] at isNew
      rw [put, if_neg isNew.1, inductionHypothesis isNew.2, List.cons_append]

/-- Items whose keys are all different are put one behind the other. -/
theorem putAll_of_nodup
    {key : Item → Key}
    {items added : List Item}
    (distinct : ((items ++ added).map key).Nodup) :
    putAll key items added = items ++ added := by
  induction added generalizing items with
  | nil =>
      exact (List.append_nil items).symm
  | cons item rest inductionHypothesis =>
      have isNew : ∀ present ∈ items, key present ≠ key item := by
        rw [List.map_append, List.nodup_append] at distinct
        intro present member
        exact distinct.2.2 (key present) (List.mem_map_of_mem member) (key item)
          (by simp)
      rw [List.append_cons, ← put_of_new isNew] at distinct ⊢
      exact inductionHypothesis distinct

/-- Of several items put under one key the last one is found. -/
theorem find?_putAll
    (key : Item → Key)
    (items added : List Item)
    (wanted : Key) :
    find? key wanted (putAll key items added) =
      (find? key wanted added.reverse).or (find? key wanted items) := by
  induction added generalizing items with
  | nil =>
      rfl
  | cons item rest inductionHypothesis =>
      have withItem :
          find? key wanted (put key item items) =
            (find? key wanted [item]).or (find? key wanted items) := by
        by_cases isWanted : key item = wanted
        · subst wanted
          rw [find?_put_self]
          simp [find?]
        · rw [find?_put_of_ne isWanted]
          simp [find?, isWanted]
      have lastFirst :
          find? key wanted (item :: rest).reverse =
            (find? key wanted rest.reverse).or (find? key wanted [item]) := by
        rw [List.reverse_cons, find?_append]
      have later := inductionHypothesis (put key item items)
      rw [withItem, ← Option.or_assoc, ← lastFirst] at later
      exact later

/-- The keys are those that were there and those that were put. -/
theorem mem_keys_putAll_iff
    {key : Item → Key}
    {items added : List Item}
    {wanted : Key} :
    wanted ∈ (putAll key items added).map key ↔
      wanted ∈ items.map key ∨ wanted ∈ added.map key := by
  induction added generalizing items with
  | nil =>
      simp [putAll]
  | cons item rest inductionHypothesis =>
      have withItem :
          wanted ∈ (put key item items).map key ↔
            wanted ∈ items.map key ∨ wanted = key item := by
        rw [map_key_put]
        split
        · rename_i isPresent
          constructor
          · exact .inl
          · rintro (isOld | rfl)
            · exact isOld
            · exact isPresent
        · rw [List.mem_append, List.mem_singleton]
      have later :
          wanted ∈ (putAll key (put key item items) rest).map key ↔
            wanted ∈ (put key item items).map key ∨ wanted ∈ rest.map key :=
        inductionHypothesis
      rw [withItem, or_assoc] at later
      rw [List.map_cons, List.mem_cons]
      exact later

/-- Keys that are all there stay where they are. -/
theorem map_key_putAll_of_subset
    {key : Item → Key}
    {items added : List Item}
    (present : added.map key ⊆ items.map key) :
    (putAll key items added).map key = items.map key := by
  induction added generalizing items with
  | nil =>
      rfl
  | cons item rest inductionHypothesis =>
      rw [List.map_cons, List.cons_subset] at present
      have sameKeys : (put key item items).map key = items.map key := by
        rw [map_key_put, if_pos present.1]
      have later := inductionHypothesis (sameKeys ▸ present.2)
      exact later.trans sameKeys

/-- A list without two items of one key is known by its keys, in order, and by what is
found under each of them. -/
theorem eq_of_find?_eq
    {key : Item → Key}
    {first second : List Item}
    (distinct : (first.map key).Nodup)
    (sameKeys : first.map key = second.map key)
    (sameFound : ∀ wanted, find? key wanted first = find? key wanted second) :
    first = second := by
  have sameLength : first.length = second.length := by
    simpa using congrArg List.length sameKeys
  apply List.ext_getElem sameLength
  intro index inFirst inSecond
  have sameKey : key first[index] = key second[index] := by
    have inKeys : index < (first.map key).length := by
      simpa using inFirst
    simpa using List.getElem_of_eq sameKeys inKeys
  have foundFirst :
      find? key (key first[index]) first = some first[index] :=
    (find?_eq_some_iff distinct).mpr ⟨List.getElem_mem inFirst, rfl⟩
  have foundSecond :
      find? key (key first[index]) second = some second[index] :=
    (find?_eq_some_iff (sameKeys ▸ distinct)).mpr
      ⟨List.getElem_mem inSecond, sameKey.symm⟩
  rw [sameFound, foundSecond] at foundFirst
  exact (Option.some.inj foundFirst).symm

/-- Putting the same items once more changes nothing. -/
theorem putAll_putAll
    {key : Item → Key}
    {items : List Item}
    (distinct : (items.map key).Nodup)
    (added : List Item) :
    putAll key (putAll key items added) added = putAll key items added := by
  have allPresent : added.map key ⊆ (putAll key items added).map key :=
    fun _ member => mem_keys_putAll_iff.mpr (.inr member)
  have sameKeys := map_key_putAll_of_subset allPresent
  apply eq_of_find?_eq _ sameKeys
  · intro wanted
    rw [find?_putAll, find?_putAll, ← Option.or_assoc, Option.or_self]
  · rw [sameKeys]
    exact nodup_putAll distinct added

/-- Items with different keys are all there once they were put. -/
theorem mem_putAll_of_mem
    {key : Item → Key}
    {items added : List Item}
    (distinct : (added.map key).Nodup)
    {item : Item}
    (member : item ∈ added) :
    item ∈ putAll key items added := by
  have reversed : (added.reverse.map key).Nodup := by
    rw [List.map_reverse, List.nodup_reverse]
    exact distinct
  have found : find? key (key item) (putAll key items added) = some item := by
    rw [find?_putAll,
      (find?_eq_some_iff reversed).mpr ⟨List.mem_reverse.mpr member, rfl⟩,
      Option.some_or]
  exact List.mem_of_find?_eq_some found

/-- The first item of every key is kept. -/
theorem find?_distinctBy
    (key : Item → Key)
    (items : List Item)
    (wanted : Key) :
    find? key wanted (distinctBy key items) = find? key wanted items := by
  induction items with
  | nil =>
      rfl
  | cons first rest inductionHypothesis =>
      by_cases isFirst : key first = wanted
      · simp [distinctBy, find?, isFirst]
      · have skipped (items : List Item) :
            find? key wanted (first :: items) = find? key wanted items := by
          simp [find?, isFirst]
        rw [distinctBy, skipped, skipped, ← inductionHypothesis, find?,
          List.find?_filter]
        apply find?_of_iff
        intro item
        simp only [bne_iff_ne, ne_eq, beq_iff_eq, decide_eq_true_eq]
        constructor
        · exact And.right
        · rintro rfl
          exact ⟨fun same => isFirst same.symm, rfl⟩

theorem nodup_distinctBy
    (key : Item → Key)
    (items : List Item) :
    ((distinctBy key items).map key).Nodup := by
  induction items with
  | nil =>
      exact List.nodup_nil
  | cons first rest inductionHypothesis =>
      rw [distinctBy, List.map_cons, List.nodup_cons]
      refine ⟨by simp, inductionHypothesis.sublist ?_⟩
      exact List.filter_sublist.map key

/-- What is kept is what is found first under its key. -/
theorem mem_distinctBy_iff
    {key : Item → Key}
    {items : List Item}
    {item : Item} :
    item ∈ distinctBy key items ↔ find? key (key item) items = some item := by
  rw [← find?_distinctBy, find?_eq_some_iff (nodup_distinctBy key items)]
  simp

end ScriptCompletion.Keyed
