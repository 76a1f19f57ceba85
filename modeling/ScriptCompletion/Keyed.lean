namespace ScriptCompletion.Keyed

/-!
# Lists with keys

Several collections keep the order in which their keys first came.  Putting an
item under a key that is already there replaces the old item where it stands.
-/

variable {Item Key : Type} [DecidableEq Key]

/-- Put an item in the place of the one with its key, or at the end. -/
def put
    (key : Item → Key)
    (item : Item) : List Item → List Item
  | [] =>
      [item]
  | first :: rest =>
      if key first = key item then
        item :: rest
      else
        first :: put key item rest

/-- Put items one after another. -/
def putAll
    (key : Item → Key)
    (items : List Item)
    (added : List Item) : List Item :=
  added.foldl (fun present item => put key item present) items

/-- The item with a key. -/
def find?
    (key : Item → Key)
    (wanted : Key)
    (items : List Item) : Option Item :=
  items.find? fun item => key item == wanted

/-- Keep the first item of every key. -/
def distinctBy (key : Item → Key) : List Item → List Item
  | [] =>
      []
  | first :: rest =>
      first :: (distinctBy key rest).filter fun item => key item != key first

/-- What was put under a key is found there. -/
@[simp]
theorem find?_put_self
    (key : Item → Key)
    (item : Item)
    (items : List Item) :
    find? key (key item) (put key item items) = some item := by
  induction items with
  | nil =>
      simp [put, find?]
  | cons first rest inductionHypothesis =>
      by_cases sameKey : key first = key item
      · simp [put, find?, sameKey]
      · simpa [put, find?, sameKey] using inductionHypothesis

/-- Putting an item changes nothing under any other key. -/
theorem find?_put_of_ne
    {key : Item → Key}
    {item : Item}
    {wanted : Key}
    (different : key item ≠ wanted)
    (items : List Item) :
    find? key wanted (put key item items) = find? key wanted items := by
  induction items with
  | nil =>
      simp [put, find?, different]
  | cons first rest inductionHypothesis =>
      by_cases sameKey : key first = key item
      · simp [put, find?, sameKey, different]
      · by_cases found : key first = wanted
        · subst found
          simp [put, find?, sameKey]
        · simpa [put, find?, sameKey, found] using inductionHypothesis

/-- The keys keep their order, and a new key comes last. -/
theorem map_key_put
    (key : Item → Key)
    (item : Item)
    (items : List Item) :
    (put key item items).map key =
      if key item ∈ items.map key then
        items.map key
      else
        items.map key ++ [key item] := by
  induction items with
  | nil =>
      simp [put]
  | cons first rest inductionHypothesis =>
      by_cases sameKey : key first = key item
      · simp [put, sameKey]
      · have other : key item ≠ key first := fun same => sameKey same.symm
        by_cases member : key item ∈ rest.map key
        · simp [put, sameKey, inductionHypothesis, member]
        · simp [put, sameKey, inductionHypothesis, member, other]

/-- Putting brings in nothing but what is put. -/
theorem mem_of_mem_put
    {key : Item → Key}
    {item other : Item}
    {items : List Item}
    (member : other ∈ put key item items) :
    other = item ∨ other ∈ items := by
  induction items with
  | nil =>
      simpa [put] using member
  | cons first rest inductionHypothesis =>
      by_cases sameKey : key first = key item
      · simp only [put, sameKey, ↓reduceIte, List.mem_cons] at member
        rcases member with isItem | inRest
        · exact .inl isItem
        · exact .inr (by simp [inRest])
      · simp only [put, sameKey, ↓reduceIte, List.mem_cons] at member
        rcases member with isFirst | inRest
        · exact .inr (by simp [isFirst])
        · rcases inductionHypothesis inRest with isItem | isOld
          · exact .inl isItem
          · exact .inr (by simp [isOld])

/-- Putting several items brings in nothing but them. -/
theorem mem_of_mem_putAll
    {key : Item → Key}
    {other : Item}
    {items added : List Item}
    (member : other ∈ putAll key items added) :
    other ∈ items ∨ other ∈ added := by
  induction added generalizing items with
  | nil =>
      exact .inl member
  | cons item rest inductionHypothesis =>
      rcases inductionHypothesis member with inPut | inRest
      · rcases mem_of_mem_put inPut with isItem | isOld
        · exact .inr (by simp [isItem])
        · exact .inl isOld
      · exact .inr (by simp [inRest])

end ScriptCompletion.Keyed
