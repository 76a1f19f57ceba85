namespace ScriptCompletion.Text

/-!
# Ranges of character codes

A property of characters is held as the ranges of codes that have it, in
ascending order and without overlap, so that a search may stop at the first
range that lies beyond the code.
-/

/-- The first and the last code of a range. -/
abbrev CodeRange :=
  Nat × Nat

/-- Whether one of the ascending ranges holds the code. -/
def inRanges
    (code : Nat) : List CodeRange → Bool
  | [] =>
      false
  | (first, last) :: rest =>
      first ≤ code && (code ≤ last || inRanges code rest)

/-- Whether every range lies behind the code and in front of the next one, with
codes between them that no range holds. -/
def areAscending
    (behind : Nat) : List CodeRange → Bool
  | [] =>
      true
  | (first, last) :: rest =>
      behind ≤ first && first ≤ last && areAscending (last + 2) rest

/-- Ascending ranges all lie behind the code that they begin behind. -/
theorem le_first_of_areAscending
    {behind : Nat}
    {ranges : List CodeRange}
    (ascending : areAscending behind ranges = true)
    {range : CodeRange}
    (member : range ∈ ranges) :
    behind ≤ range.1 := by
  induction ranges generalizing behind with
  | nil =>
      cases member
  | cons head rest inductionHypothesis =>
      simp only [areAscending, Bool.and_eq_true, decide_eq_true_eq] at ascending
      obtain ⟨⟨headBehind, headHolds⟩, restAscending⟩ := ascending
      cases member with
      | head =>
          exact headBehind
      | tail _ restMember =>
          have := inductionHypothesis restAscending restMember
          omega

/-- In ascending ranges, the search finds every code that a range holds. -/
theorem inRanges_iff
    {behind : Nat}
    {ranges : List CodeRange}
    (ascending : areAscending behind ranges = true)
    (code : Nat) :
    inRanges code ranges = true ↔
      ∃ range ∈ ranges, range.1 ≤ code ∧ code ≤ range.2 := by
  induction ranges generalizing behind with
  | nil =>
      simp [inRanges]
  | cons head rest inductionHypothesis =>
      simp only [areAscending, Bool.and_eq_true, decide_eq_true_eq] at ascending
      obtain ⟨⟨_, headHolds⟩, restAscending⟩ := ascending
      have beyond : ∀ range ∈ rest, head.2 + 2 ≤ range.1 :=
        fun range member => le_first_of_areAscending restAscending member
      simp only [inRanges, Bool.and_eq_true, Bool.or_eq_true,
        decide_eq_true_eq, inductionHypothesis restAscending]
      constructor
      · rintro ⟨lower, upper | ⟨range, member, holds⟩⟩
        · exact ⟨head, List.mem_cons_self, lower, upper⟩
        · exact ⟨range, List.mem_cons_of_mem head member, holds⟩
      · rintro ⟨range, member, lower, upper⟩
        cases member with
        | head =>
            exact ⟨lower, Or.inl upper⟩
        | tail _ restMember =>
            have := beyond range restMember
            exact ⟨by omega, Or.inr ⟨range, restMember, lower, upper⟩⟩

end ScriptCompletion.Text
