import ScriptCompletion.Failure

namespace ScriptCompletion

/-!
# Collaborators

Two services are asked from outside: one gives the address behind a name, the
other the document at an address.  Each answer comes after a stated time, in
milliseconds, so what a completion sees is a function of its input.
-/

/-- Something that is there after a delay in milliseconds. -/
structure Timed (Content : Type) where
  delay : Nat
  content : Content
deriving Repr, DecidableEq

/-- Wait no longer than the timeout; an answer exactly at the timeout counts. -/
def Timed.within
    {Content : Type}
    (timed : Timed Content)
    (timeout : Nat)
    (instead : Content) : Timed Content :=
  if timeout < timed.delay then
    ⟨timeout, instead⟩
  else
    timed

/-- A question to a collaborator. -/
inductive Call where
  | resolveName (name : String)
  | fetch (address : String)
deriving Repr, DecidableEq

/-- A question and the moment at which it was asked. -/
structure TimedCall where
  moment : Nat
  call : Call
deriving Repr, DecidableEq

namespace TimedCall

/-- The same question asked later. -/
def later
    (timed : TimedCall)
    (delay : Nat) : TimedCall :=
  { timed with moment := timed.moment + delay }

/-- The questions in the order in which they were asked; those of one moment
keep their order. -/
def inOrder (calls : List TimedCall) : List Call :=
  (calls.mergeSort fun first second =>
    decide (first.moment ≤ second.moment)).map TimedCall.call

end TimedCall

/-- The services that are asked. -/
structure Collaborators where
  /-- The address behind a name, if it has one. -/
  resolveName : String → Timed (Except ExternalError (Option String))
  /-- The document at an address. -/
  fetch : String → Timed (Except ExternalError String)

namespace Collaborators

/-- Services that answer at once from tables. -/
def offline
    (names : List (String × String))
    (documents : List (String × String)) : Collaborators where
  resolveName name :=
    ⟨0, .ok (names.lookup name)⟩
  fetch address :=
    match documents.lookup address with
    | none =>
        ⟨0, .error (.content s!"no content at {address}")⟩
    | some document =>
        ⟨0, .ok document⟩

end Collaborators

end ScriptCompletion
