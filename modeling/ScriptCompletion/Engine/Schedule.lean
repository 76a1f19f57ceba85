import ScriptCompletion.Engine.Pass

namespace ScriptCompletion

/-!
# Overlapping passes

Several passes may run on one session.  Each begins at one moment and ends at
another, and what happens in between does not touch the session.  A run is
therefore a list of steps, in any order; the steps of passes with known start
times are taken in the order of time.
-/

/-- A completion that is asked for. -/
structure PassRequest where
  text : String
  cursor : Position
deriving Repr, DecidableEq

/-- A pass that has begun and not ended. -/
structure RunningPass where
  /-- Tells the passes of a run apart. -/
  number : Nat
  ticket : Ticket
  draft : Draft
  /-- The moment at which the pass began. -/
  start : Nat

namespace RunningPass

/-- The moment at which the pass ends. -/
def stop (pass : RunningPass) : Nat :=
  pass.start + pass.draft.duration

/-- What the pass asks, at the moments at which it asks. -/
def calls (pass : RunningPass) : List TimedCall :=
  pass.draft.calls.map fun timed => timed.later pass.start

end RunningPass

/-- A run of several passes on one session. -/
structure Run where
  session : Session
  /-- The passes that have not ended, in the order of their beginning. -/
  running : List RunningPass
  /-- The results of the passes that have ended, latest first. -/
  results : List (Nat × PassResult)
  /-- What was asked, in the order in which the passes began. -/
  calls : List TimedCall

namespace Run

/-- A run before its first pass. -/
def initial (session : Session) : Run where
  session := session
  running := []
  results := []
  calls := []

/-- Begin a pass. -/
def begin
    (run : Run)
    (engine : Engine)
    (number : Nat)
    (moment : Nat)
    (request : PassRequest) : Run :=
  let (ticket, session) := run.session.begin
  let pass : RunningPass :=
    { number := number
      ticket := ticket
      draft := engine.draft session request.text request.cursor
      start := moment }
  { run with
    session := session
    running := run.running ++ [pass]
    calls := run.calls ++ pass.calls }

/-- End a pass. -/
def finish
    (run : Run)
    (pass : RunningPass) : Run :=
  let (result, session) := pass.draft.conclude run.session pass.ticket
  { run with
    session := session
    running := run.running.filter fun other => other.number != pass.number
    results := (pass.number, result) :: run.results }

/-- End the given passes, the one that ends first before the others. -/
def finishAll
    (run : Run)
    (passes : List RunningPass) : Run :=
  (passes.mergeSort fun first second =>
    decide (first.stop ≤ second.stop)).foldl finish run

/-- End all passes that end at the moment or before it. -/
def advanceTo
    (run : Run)
    (moment : Nat) : Run :=
  run.finishAll (run.running.filter fun pass => pass.stop ≤ moment)

/-- The result of a pass that has ended. -/
def result?
    (run : Run)
    (number : Nat) : Option PassResult :=
  run.results.lookup number

end Run

/-- A completion that is asked for at a moment. -/
structure ScheduledPass where
  number : Nat
  start : Nat
  request : PassRequest
deriving Repr, DecidableEq

namespace Engine

/-- Take the time to the start of a pass, and begin it. -/
def beginScheduled
    (engine : Engine)
    (run : Run)
    (scheduled : ScheduledPass) : Run :=
  (run.advanceTo scheduled.start).begin engine scheduled.number scheduled.start
    scheduled.request

/-- Run passes to their ends.  Passes that start at one moment begin in the
order of the list. -/
def runScheduled
    (engine : Engine)
    (session : Session)
    (passes : List ScheduledPass) : Run :=
  let ordered :=
    passes.mergeSort fun first second =>
      decide (first.start ≤ second.start)
  let run := ordered.foldl engine.beginScheduled (.initial session)
  run.finishAll run.running

/-- Run one pass alone. -/
def complete
    (engine : Engine)
    (session : Session)
    (request : PassRequest) : PassResult × Session :=
  let (ticket, session) := session.begin
  (engine.draft session request.text request.cursor).conclude session ticket

end Engine

end ScriptCompletion
