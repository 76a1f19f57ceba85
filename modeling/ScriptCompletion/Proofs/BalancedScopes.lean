import ScriptCompletion.Proofs.InsertionOrder

namespace ScriptCompletion

/-!
# Balanced operations

Whatever is bound goes into the innermost scope, and only the innermost scope can be
closed.  So between the opening of a scope and its end nothing reaches the scopes around
it, as long as every scope that is closed in between was also opened in between.  To see
this it is enough to count: the scopes that stood before are the outer frames of all
scopes on the way, and the count is how many further ones there are.
-/

namespace ScopeOperation

/-- How many of the scopes that operations have opened are open behind a further one,
which must not close any other scope. -/
def openedBehind?
    (opened : Nat) : ScopeOperation → Option Nat
  | .enter _ =>
      some (opened + 1)
  | .exit =>
      match opened with
      | 0 =>
          none
      | remaining + 1 =>
          some remaining
  | .bind _ | .bindAll _ | .merge _ =>
      some opened

/-- Whether the operations close all scopes that they open, and no others. -/
def AreBalanced (operations : List ScopeOperation) : Prop :=
  operations.foldlM openedBehind? 0 = some 0

instance (operations : List ScopeOperation) :
    Decidable (AreBalanced operations) :=
  inferInstanceAs (Decidable (_ = some 0))

/-- Carry operations out one after another, up to the first one that fails. -/
def performAll
    (scopes : Scopes)
    (operations : List ScopeOperation) : Except ScopeError Scopes :=
  operations.foldlM perform scopes

theorem performAll_cons
    {scopes next : Scopes}
    {operation : ScopeOperation}
    (performed : operation.perform scopes = .ok next)
    (rest : List ScopeOperation) :
    performAll scopes (operation :: rest) = performAll next rest := by
  rw [performAll, List.foldlM_cons, performed]
  rfl

theorem performAll_append
    {scopes next : Scopes}
    {operations : List ScopeOperation}
    (performed : performAll scopes operations = .ok next)
    (rest : List ScopeOperation) :
    performAll scopes (operations ++ rest) = performAll next rest := by
  rw [performAll] at performed
  rw [performAll, List.foldlM_append, performed]
  rfl

end ScopeOperation

namespace Scopes

/-- One scope and the given number of further ones have been opened inside the base,
which is as it was. -/
def IsInside
    (base : Scopes)
    (opened : Nat)
    (scopes : Scopes) : Prop :=
  ∃ own,
    own.length = opened + 1 ∧ scopes.frames = own ++ base.frames

namespace IsInside

variable {base scopes : Scopes} {opened : Nat}

theorem of_enter
    (base : Scopes)
    (context : Option String) :
    base.IsInside 0 (base.enter context) :=
  ⟨[.empty context], rfl, rfl⟩

theorem enter
    (inside : base.IsInside opened scopes)
    (context : Option String) :
    base.IsInside (opened + 1) (scopes.enter context) := by
  obtain ⟨own, counted, shape⟩ := inside
  refine ⟨.empty context :: own, by rw [List.length_cons, counted], ?_⟩
  have entered :
      (scopes.enter context).frames = .empty context :: scopes.frames :=
    rfl
  rw [entered, shape, List.cons_append]

/-- The frames of the base are not the innermost one, into which bindings go. -/
theorem bindAll
    (inside : base.IsInside opened scopes)
    (bindings : List Binding) :
    base.IsInside opened (scopes.bindAll bindings) := by
  obtain ⟨own, counted, shape⟩ := inside
  cases own with
  | nil =>
      cases counted
  | cons innermost further =>
      have around : scopes.outer = further ++ base.frames :=
        (List.cons.inj shape).2
      refine ⟨scopes.innermost.bindAll bindings :: further, counted, ?_⟩
      rw [frames_bindAll, around, List.cons_append]

/-- The innermost scope can be closed while further ones are open. -/
theorem exit
    (inside : base.IsInside (opened + 1) scopes) :
    ∃ outside, scopes.exit = .ok outside ∧ base.IsInside opened outside := by
  obtain ⟨own, counted, shape⟩ := inside
  match own with
  | [] =>
      cases counted
  | [innermost] =>
      cases counted
  | innermost :: next :: further =>
      let outside : Scopes := ⟨next, further ++ base.frames⟩
      refine ⟨outside, exit_of_frames shape, next :: further, ?_, rfl⟩
      rw [List.length_cons] at counted
      omega

/-- Closing the scope that was opened first leads back to the base. -/
theorem exit_base
    (inside : base.IsInside 0 scopes) :
    scopes.exit = .ok base := by
  obtain ⟨own, counted, shape⟩ := inside
  obtain ⟨innermost, rfl⟩ := List.length_eq_one_iff.mp counted
  exact exit_of_frames shape

/-- An operation that closes no scope of the base does not fail and leaves the base
as it is. -/
theorem perform
    (inside : base.IsInside opened scopes)
    {operation : ScopeOperation}
    {behind : Nat}
    (counted : operation.openedBehind? opened = some behind) :
    ∃ next,
      operation.perform scopes = .ok next ∧ base.IsInside behind next := by
  cases operation with
  | enter context =>
      cases counted
      exact ⟨_, rfl, inside.enter context⟩
  | exit =>
      cases opened with
      | zero =>
          cases counted
      | succ remaining =>
          cases counted
          exact inside.exit
  | bind binding =>
      cases counted
      exact ⟨_, rfl, inside.bindAll [binding]⟩
  | bindAll bindings =>
      cases counted
      exact ⟨_, rfl, inside.bindAll bindings⟩
  | merge other =>
      cases counted
      exact ⟨_, rfl, inside.bindAll other.bindings⟩

theorem performAll
    (inside : base.IsInside opened scopes)
    {operations : List ScopeOperation}
    {behind : Nat}
    (counted :
      operations.foldlM ScopeOperation.openedBehind? opened = some behind) :
    ∃ last,
      ScopeOperation.performAll scopes operations = .ok last ∧
        base.IsInside behind last := by
  induction operations generalizing opened scopes with
  | nil =>
      cases counted
      exact ⟨scopes, rfl, inside⟩
  | cons operation rest inductionHypothesis =>
      rw [List.foldlM_cons] at counted
      obtain ⟨between, countedFirst, countedRest⟩ :=
        Option.bind_eq_some_iff.mp counted
      obtain ⟨next, performed, insideNext⟩ := inside.perform countedFirst
      obtain ⟨last, performedRest, insideLast⟩ :=
        inductionHypothesis insideNext countedRest
      refine ⟨last, ?_, insideLast⟩
      rw [ScopeOperation.performAll_cons performed, performedRest]

end IsInside

/-- Only the root frame alone cannot be left. -/
theorem exit_eq_error_iff
    {scopes : Scopes}
    {error : ScopeError} :
    scopes.exit = .error error ↔
      scopes.depth = 0 ∧ error = .exitRootScope := by
  unfold exit depth
  cases scopes.outer with
  | nil =>
      simp
  | cons frame outer =>
      simp

/--
Balanced operations restore the scopes.  Open a scope in any scopes, with or without a
module of its own, carry out operations that close all scopes that they open and no
others, and close the scope: nothing fails, and the scopes are what they were, frame for
frame.  Closing a scope fails if and only if the root frame is alone, and leaves it as it
is.
-/
theorem balanced_operations_restore (scopes : Scopes) :
    (∀ context operations,
      ScopeOperation.AreBalanced operations →
      ScopeOperation.performAll scopes
          (.enter context :: operations ++ [.exit]) =
        .ok scopes) ∧
      (∀ error,
        ScopeOperation.exit.perform scopes = .error error ↔
          scopes.depth = 0 ∧ error = .exitRootScope) ∧
      (scopes.depth = 0 →
        ScopeOperation.exit.after scopes = scopes) := by
  refine ⟨?_, fun error => exit_eq_error_iff, ?_⟩
  · intro context operations balanced
    obtain ⟨last, performed, inside⟩ :=
      (IsInside.of_enter scopes context).performAll balanced
    have entered :
        ScopeOperation.perform scopes (.enter context) =
          .ok (scopes.enter context) :=
      rfl
    have left : ScopeOperation.perform last .exit = .ok scopes :=
      inside.exit_base
    calc
      ScopeOperation.performAll scopes
          (.enter context :: operations ++ [.exit])
        = ScopeOperation.performAll (scopes.enter context)
            (operations ++ [.exit]) :=
          ScopeOperation.performAll_cons entered _
      _ = ScopeOperation.performAll last [.exit] :=
          ScopeOperation.performAll_append performed _
      _ = .ok scopes :=
          ScopeOperation.performAll_cons left []
  · intro isRoot
    have fails :
        ScopeOperation.exit.perform scopes = .error .exitRootScope :=
      exit_eq_error_iff.mpr ⟨isRoot, rfl⟩
    rw [ScopeOperation.after, fails]

/--
In a scope of the standard module names of the scopes around it are bound anew, two
further scopes are opened one after the other and a third one inside the second, and all
of them are closed.
-/
theorem balanced_operations_restore_shadowed :
    let scopes :=
      ScopeOperation.build
        [.bind (.ofVariable "$a" "1"), .enter (some "std"),
          .bind (.ofVariable "$b" "2")]
    let operations : List ScopeOperation :=
      [.bindAll [.ofVariable "$a" "3", .ofVariable "$b" "4"],
        .enter none, .exit,
        .enter (some "aragonos"), .merge scopes, .enter none,
        .bind (.ofVariable "$c" "5"), .exit, .exit]
    ScopeOperation.AreBalanced operations ∧
      scopes.depth = 1 ∧
      ScopeOperation.performAll scopes
          (.enter (some "std") :: operations ++ [.exit]) =
        .ok scopes ∧
      ScopeOperation.exit.after .root = .root := by
  intro scopes operations
  have balanced : ScopeOperation.AreBalanced operations := by
    decide
  exact ⟨balanced, rfl,
    (balanced_operations_restore scopes).1 (some "std") operations balanced,
    (balanced_operations_restore .root).2.2 rfl⟩

end Scopes

end ScriptCompletion
