namespace ScriptCompletion

/-!
# Positions in a script

Lines and columns count from zero, and a column counts characters.  Positions
are ordered by line first and by column inside a line.
-/

/-- A place between two characters of a script. -/
structure Position where
  line : Nat
  column : Nat
deriving Repr, DecidableEq, Inhabited

namespace Position

/-- Lexicographic order: an earlier line, or the same line further left. -/
instance : LT Position where
  lt first second :=
    first.line < second.line ∨
      (first.line = second.line ∧ first.column < second.column)

/-- The order that also holds between equal positions. -/
instance : LE Position where
  le first second :=
    first.line < second.line ∨
      (first.line = second.line ∧ first.column ≤ second.column)

instance (first second : Position) : Decidable (first < second) :=
  inferInstanceAs (Decidable
    (first.line < second.line ∨
      (first.line = second.line ∧ first.column < second.column)))

instance (first second : Position) : Decidable (first ≤ second) :=
  inferInstanceAs (Decidable
    (first.line < second.line ∨
      (first.line = second.line ∧ first.column ≤ second.column)))

/-- The strict order compares lines before columns. -/
theorem lt_iff
    {first second : Position} :
    first < second ↔
      first.line < second.line ∨
        (first.line = second.line ∧ first.column < second.column) :=
  Iff.rfl

/-- The weak order compares lines before columns. -/
theorem le_iff
    {first second : Position} :
    first ≤ second ↔
      first.line < second.line ∨
        (first.line = second.line ∧ first.column ≤ second.column) :=
  Iff.rfl

theorem le_refl (position : Position) :
    position ≤ position :=
  .inr ⟨rfl, Nat.le_refl _⟩

theorem le_of_lt
    {first second : Position}
    (less : first < second) :
    first ≤ second := by
  rw [lt_iff] at less
  rw [le_iff]
  omega

theorem le_trans
    {first second third : Position}
    (earlier : first ≤ second)
    (later : second ≤ third) :
    first ≤ third := by
  rw [le_iff] at *
  omega

theorem lt_of_lt_of_le
    {first second third : Position}
    (earlier : first < second)
    (later : second ≤ third) :
    first < third := by
  rw [lt_iff] at *
  rw [le_iff] at later
  omega

end Position

/-- A stretch of text; `stop` is the first position after it. -/
structure Span where
  start : Position
  stop : Position
deriving Repr, DecidableEq, Inhabited

namespace Span

/-- The stretch between two columns of one line. -/
def onLine
    (line : Nat)
    (startColumn : Nat)
    (stopColumn : Nat) : Span where
  start := ⟨line, startColumn⟩
  stop := ⟨line, stopColumn⟩

end Span

end ScriptCompletion
