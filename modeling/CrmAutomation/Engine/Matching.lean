import CrmAutomation.Engine.Executor
import CrmAutomation.Store.Definitions

/-!
# Matching events

An event starts a run of every published definition of its organization that listens to its type
and whose filters it passes. A contact has at most one active run of a definition: a second event
is dropped. The runs are created in the turn of the contact and executed after it, and the
follow-up events of the runs are handled in the same way. An event deeper than the greatest chain
depth is ignored, so `handleEvent` ends however the workflows trigger each other.
-/

namespace CrmAutomation

/-- What an event came to. -/
structure MatchResult where
  event : String
  matched : Nat := 0
  deduplicated : Nat := 0
  runs : List Run := []
  outcomes : List Outcome := []
  ignored : Option String := none

/-- The result for an event whose chain of causes is too long. -/
def MatchResult.tooDeep (event : String) : MatchResult :=
  { event := event, ignored := some "chain_depth_exceeded" }

namespace Engine

variable {σ : Type}

/-! ## Candidates -/

/-- The graph of a definition, unless it has none that can be read. -/
def usableGraph? (d : Definition) : Engine σ (Option Graph) := do
  match cached? d.id (← get).graphs with
  | some g => return some g
  | none =>
    match parse d.graph with
    | .error _ => return none
    | .ok g =>
      remember d.id g
      return some g

/-- The definitions that have one trigger, with it. -/
def withTriggers : List Definition → Engine σ (List (Definition × Node))
  | [] => return []
  | d :: rest => do
    let graph ← usableGraph? d
    let others ← withTriggers rest
    match graph.bind Graph.trigger? with
    | some trigger => return (d, trigger) :: others
    | none => return others

/-- The definitions that listen to the type of an event. -/
def candidates (env : Environment σ) (e : Event) : Engine σ (List (Definition × Node)) := do
  withTriggers (← look env .publishedFor fun db => db.publishedFor e.organization e.type.text)

/-! ## Starting runs -/

/-- Creates a run unless its slot is taken. -/
def createRun (env : Environment σ) (d : Definition) (contact node : String) (event : Value)
    (chainDepth : Int) : Engine σ (Option Run) := do
  interrupt env .create
  let chainDepth ← ofExcept (Database.bound chainDepth)
  let id ← freshId env .run
  let time ← now
  let w ← get
  let (run, db) := Database.createRun time id d contact node event chainDepth w.db
  set { w with db := db }
  return run

/-- Creates the runs of an event. -/
def startRuns (env : Environment σ) (e : Event) :
    List (Definition × Node) → MatchResult → Engine σ MatchResult
  | [], r => return r
  | (d, trigger) :: rest, r => do
    if e.passesAll trigger.config.filters then
      match ← createRun env d e.contact trigger.id e.toValue e.chainDepth with
      | some run =>
        startRuns env e rest { r with matched := r.matched + 1, runs := r.runs ++ [run] }
      | none =>
        startRuns env e rest { r with matched := r.matched + 1, deduplicated := r.deduplicated + 1 }
    else startRuns env e rest r

/-- Does something in the turn of a contact. -/
def inTurn {α : Type} (organization contact : String) (x : Engine σ α) : Engine σ α := do
  let key := (organization, contact)
  let caller := (Turns.callers key (← get).turns).length
  modify fun w => { w with turns := w.turns.arrive key caller }
  let r ← attempt x
  modify fun w => { w with turns := w.turns.leave key caller }
  ofExcept r

/-! ## Handling events -/

/-- Executes runs one after the other. -/
def advanceAll (env : Environment σ) (route : List Event → Engine σ Unit) :
    List Run → Engine σ (List Outcome)
  | [] => return []
  | run :: rest => do
    let o ← runFrom env route false run.id
    return o :: (← advanceAll env route rest)

/-- Handles an event; `route` takes the follow-up events. -/
def handleWith (env : Environment σ) (route : List Event → Engine σ Unit) (e : Event) :
    Engine σ MatchResult := do
  interrupt env .handleEvent
  if env.rules.maxChainDepth < e.chainDepth then return .tooDeep e.id
  let r ← inTurn e.organization e.contact do
    startRuns env e (← candidates env e) { event := e.id }
  return { r with outcomes := ← advanceAll env route r.runs }

/-- Hands events to `handle`, one after the other. -/
def routeEach (handle : Event → Engine σ MatchResult) : List Event → Engine σ Unit
  | [] => return ()
  | e :: rest => do
    let _ ← handle e
    routeEach handle rest

/-- Handles an event with the follow-up events of at most `levels` levels below it. -/
def handleWithin (env : Environment σ) : Nat → Event → Engine σ MatchResult
  | 0, e => handleWith env (fun _ => return ()) e
  | levels + 1, e => handleWith env (routeEach (handleWithin env levels)) e

/-- How many levels of follow-up events there can be below an event of some depth. -/
def levelsBelow (rules : Rules) (depth : Int) : Nat := (rules.maxChainDepth + 1 - depth).toNat

/-- Handles an event and all that follows from it. -/
def handleEvent (env : Environment σ) (e : Event) : Engine σ MatchResult :=
  handleWithin env (levelsBelow env.rules e.chainDepth) e

/-- Handles follow-up events. -/
def routeFollowUps (env : Environment σ) : List Event → Engine σ Unit := routeEach (handleEvent env)

/-! ## Entry points -/

/-- Executes a run from the node it is on. -/
def advance (env : Environment σ) (run : String) : Engine σ Outcome :=
  runFrom env (routeFollowUps env) false run

/-- Executes a run whose delay is over. -/
def resume (env : Environment σ) (run : String) : Engine σ Outcome :=
  runFrom env (routeFollowUps env) true run

/-- The event type that a trigger listens to. -/
def triggerType (trigger : Node) : Except Failure EventType :=
  match trigger.config with
  | .trigger name _ _ =>
    match EventType.ofText? name with
    | some t => .ok t
    | none => .error (.system .valueError (Text.quoted name ++ " is not a valid TriggerEventType"))
  | _ => .error (.system .attributeError "")

/-- Starts a run of a definition for a contact whatever its filters say; nothing comes of it when the
contact has an active run of the definition. -/
def startManually (env : Environment σ) (d : Definition) (contact : String) (payload : Members) :
    Engine σ (Option Outcome) := do
  match (← usableGraph? d).bind Graph.trigger? with
  | none => throw (.invalidGraph ["definition " ++ d.id ++ " has no usable trigger"])
  | some trigger =>
    let type ← ofExcept (triggerType trigger)
    let id ← freshId env .event
    let time ← now
    let event : Event := {
      type := type
      organization := d.organization
      contact := contact
      payload := Members.merge payload [("manual", .bool true)]
      chainDepth := 0
      id := id
      occurredAt := time }
    let created ← inTurn d.organization contact
      (createRun env d contact trigger.id event.toValue 0)
    match created with
    | none => return none
    | some run => return some (← advance env run.id)

end Engine

end CrmAutomation
