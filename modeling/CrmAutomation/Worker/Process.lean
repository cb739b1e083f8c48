import CrmAutomation.Engine.Sweep
import CrmAutomation.Event.Feed

/-!
# Processes

What the processes of a deployment do with the engine. A worker takes one event, or sweeps, and
closes its services in any case. The server sweeps when it comes up and hears the event bus, as far
as its settings let it, until it goes down.
-/

namespace CrmAutomation

/-- What a worker reports of an event. -/
def MatchResult.summary (r : MatchResult) : Value :=
  .obj [("event_id", .str r.event), ("matched", .int r.matched),
    ("started", .list (r.runs.map fun run => .str run.id)), ("deduplicated", .int r.deduplicated),
    ("ignored_reason", .ofOption r.ignored)]

/-- What a worker reports of a sweep. -/
def SweepReport.toValue (r : SweepReport) : Value :=
  .obj [("due", .int r.due), ("claimed", .int r.claimed), ("lost", .int r.lost),
    ("recovered", .int r.recovered), ("errors", .list (r.errors.map .str))]

namespace Engine

variable {σ : Type}

/-- Closes the connections to the services. -/
def closeServices (env : Environment σ) : Engine σ Unit := do
  let _ ← ask env (.close .pipeline)
  let _ ← ask env (.close .messaging)
  let _ ← ask env (.close .webhooks)

/-- Does something and closes the services, whether it fails or not. -/
def thenClose {α : Type} (env : Environment σ) (x : Engine σ α) : Engine σ α := do
  let r ← attempt x
  closeServices env
  ofExcept r

/-- The event that an object describes, with an id if it has none. -/
def readEvent (env : Environment σ) (ms : Members) : Engine σ Event := do
  let id ← freshId env .event
  let time ← now
  ofExcept (Event.ofMembers id time ms)

/-- Computes with graphs of its own, as another process does. -/
def withOwnGraphs {α : Type} (x : Engine σ α) : Engine σ α := do
  let graphs := (← get).graphs
  modify fun w => { w with graphs := [] }
  let r ← attempt x
  modify fun w => { w with graphs := graphs }
  ofExcept r

/-- A worker's task for one event. -/
def workOnEvent (env : Environment σ) (ms : Members) : Engine σ MatchResult := do
  let e ← readEvent env ms
  thenClose env (handleEvent env e)

/-- A worker's task to sweep. -/
def workOnSweep (env : Environment σ) : Engine σ SweepReport := thenClose env (sweep env)

/-- Hears the events of a feed. -/
def hear (env : Environment σ) (feed : List Feed.Item) : Engine σ Unit :=
  let read (body : Feed.Body) : Engine σ (Except Failure (Option Event)) := do
    let id ← freshId env .event
    let time ← now
    return Feed.decode id time body
  let handle (e : Event) : Engine σ (Except Failure Unit) := do
    return (← attempt (handleEvent env e)).map fun _ => ()
  Feed.listen read (some handle) feed

/-- The life of a server: it comes up, works, and goes down. -/
def serverLife (env : Environment σ) (s : Settings) (feed : List Feed.Item) : Engine σ Unit := do
  ofExcept s.checkSecrets
  if s.schedulerEnabled then
    let _ ← attempt (sweep env)
  if s.busEnabled then hear env feed
  closeServices env

end Engine

end CrmAutomation
