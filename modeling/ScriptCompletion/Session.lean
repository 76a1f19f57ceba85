import ScriptCompletion.Loading

namespace ScriptCompletion

/-!
# Sessions

A session keeps the modules of the last completion, so that moving the cursor
does not look them up again.  They serve scripts with the same loads alone.
Passes are numbered when they begin, and only the one that began last may write
its modules back.
-/

/-- The number that a pass got when it began. -/
structure Ticket where
  number : Nat
deriving Repr, DecidableEq

/-- What is kept between passes. -/
structure Session where
  /-- The number of passes that have begun. -/
  sequence : Nat
  /-- The loads for which the modules were kept. -/
  signature : Option Signature
  /-- The modules, each under its key. -/
  bindings : List Binding

namespace Session

/-- A session before its first pass. -/
def initial : Session where
  sequence := 0
  signature := none
  bindings := []

/-- Begin a pass. -/
def begin (session : Session) : Ticket × Session :=
  (⟨session.sequence + 1⟩,
    { session with sequence := session.sequence + 1 })

/-- Whether no pass has begun since the one with the ticket. -/
def isLatest
    (session : Session)
    (ticket : Ticket) : Bool :=
  session.sequence == ticket.number

/-- The modules kept for a signature, by their own names. -/
def cached
    (session : Session)
    (signature : Signature) : List (String × Module) :=
  if session.signature = some signature then
    Keyed.putAll Prod.fst []
      ((session.bindings.filterMap Binding.module?).map fun module =>
        (module.name, module))
  else
    []

/-- Write modules for a signature.  Those of another signature are dropped. -/
def store
    (session : Session)
    (signature : Signature)
    (environment : Scopes) : Session :=
  let kept :=
    if session.signature = some signature then
      session.bindings
    else
      []
  { session with
    signature := some signature
    bindings :=
      Keyed.putAll Binding.key kept (environment.snapshot [.module]) }

/-- Write the modules of a pass, unless another pass has begun since. -/
def commit
    (session : Session)
    (ticket : Ticket)
    (signature : Signature)
    (environment : Scopes) : Option Session :=
  if session.isLatest ticket then
    some (session.store signature environment)
  else
    none

/-- Forget all modules. -/
def invalidate (session : Session) : Session :=
  { session with
    signature := none
    bindings := [] }

/-- The number of modules that are kept. -/
def size (session : Session) : Nat :=
  session.bindings.length

/-- A pass that has just begun is the latest one. -/
@[simp]
theorem isLatest_begin (session : Session) :
    session.begin.2.isLatest session.begin.1 = true := by
  simp [begin, isLatest]

end Session

end ScriptCompletion
