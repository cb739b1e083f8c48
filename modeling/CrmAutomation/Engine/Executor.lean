import CrmAutomation.Condition
import CrmAutomation.Engine.Action
import CrmAutomation.Graph.Reader

/-!
# Executing runs

A run sits on a node. `Engine.runFrom` executes that node and goes on until the run is not running
any more: a trigger leads on, a condition takes one of two branches, a delay suspends the run,
an action is tried until it succeeds or fails for good, and where no edge leads on the run is
completed. Before every node the state of the run is read again, and every write is guarded, so
a cancelled run stops. An outcome is recorded before the run moves on.
-/

namespace CrmAutomation

/-- What one advance of a run did. -/
structure Outcome where
  run : String
  state : Option RunState := none
  steps : Nat := 0
  emitted : List Event := []
  error : Option String := none

/-- How far an advance has come. -/
structure Progress where
  node : String
  resuming : Bool
  outcome : Outcome

/-- Why an advance ends early: the run was taken from it, or something failed. -/
inductive Halt where
  | stopped
  | failed (f : Failure)

/-- A computation on one run. What it has done stays known when it halts. -/
abbrev Walk (σ : Type) := ExceptT Halt (StateM (Progress × World σ))

namespace Walk

variable {σ α : Type}

/-- A computation of the engine as part of a walk. -/
def engine (x : Engine σ α) : Walk σ α :=
  ExceptT.mk fun (p, w) =>
    let (r, after) := x.run w
    (match r with
      | .ok a => .ok a
      | .error f => .error (.failed f), p, after)

def progress : Walk σ Progress := return (← get).1

def update (f : Progress → Progress) : Walk σ Unit := modify fun (p, w) => (f p, w)

/-- The run is not running any more. -/
def settle (state : Option RunState) : Walk σ Unit :=
  update fun p => { p with outcome := { p.outcome with state := state } }

def halt : Walk σ α := throw .stopped

end Walk

namespace Engine

variable {σ : Type}

/-! ## Ends -/

def stateOf (env : Environment σ) (run : String) : Engine σ (Option RunState) :=
  look env .getState fun db => (db.run? run).map (·.state)

/-- Fails a run; the outcome tells the state that the run is in then. -/
def failRun (env : Environment σ) (run error : String) (o : Outcome) : Engine σ Outcome := do
  if ← stored env .fail (fun time => Database.fail time run error) then
    return { o with error := some error, state := some .failed }
  else
    let state ← stateOf env run
    return { o with error := some error, state := state }

/-- Fails the run of a walk. -/
def failWalk (env : Environment σ) (run error : String) : Walk σ Unit := do
  let p ← Walk.progress
  let o ← Walk.engine (failRun env run error p.outcome)
  Walk.update fun p => { p with outcome := o }

/-- Moves the run to a node, or completes it when there is none. -/
def goOn (env : Environment σ) (run : String) (next : Option String) : Walk σ Unit := do
  match next with
  | none =>
    if ← Walk.engine (stored env .complete fun time => Database.complete time run) then
      Walk.settle (some .completed)
    else Walk.halt
  | some node =>
    if ← Walk.engine (stored env .moveTo fun time => Database.moveTo time run node) then
      Walk.update fun p => { p with node := node }
    else Walk.halt

/-! ## Records -/

/-- Records an attempt at a node. -/
def record (env : Environment σ) (run node nodeType : String) (attempt : Int) (outcome : NodeOutcome)
    (error : Option String) (output : Option Value) : Engine σ NodeRecord := do
  interrupt env .record
  commit fun time => Database.record {
    run := run
    node := node
    nodeType := nodeType
    attempt := attempt
    outcome := outcome
    error := error
    output := output
    executedAt := time }

def nextAttempt (env : Environment σ) (run node : String) : Engine σ Int :=
  look env .nextAttempt fun db => db.nextAttempt run node

def hasSuccess (env : Environment σ) (run node : String) : Engine σ Bool :=
  look env .hasSuccess fun db => db.hasSuccess run node

/-! ## Conditions -/

/-- The contact of a run, the services being asked again when they fail for a while. -/
def readContact (env : Environment σ) (run : Run) : Engine σ (Option Contact) := do
  let call : StateM (World σ) (Except Failure (Option Contact)) :=
    (demand env (.getContact run.organization run.contact)).run
  ExceptT.mk (RetryStrategy.forReads.execute (draw env) (fun _ _ _ => pure ()) call)

/-- The wording of a failure that keeps a condition from being decided. -/
def conditionError : Failure → String
  | .collaborator m _ _ => m
  | .condition m => m
  | f => f.kindName ++ ": " ++ f.text

/-- The result of a condition for the contact as it is now. -/
def decideCondition (env : Environment σ) (run : Run) (c : Comparison) : Engine σ Bool := do
  match ← readContact env run with
  | none => throw (.condition ("Contact " ++ run.contact ++ " not found"))
  | some contact =>
    match c.holds contact with
    | .ok b => return b
    | .error p => throw (.condition p.message)

/-- Takes a branch. -/
def executeCondition (env : Environment σ) (graph : Graph) (run : Run) (node : Node)
    (c : Comparison) : Walk σ Unit := do
  let number ← Walk.engine (nextAttempt env run.id node.id)
  match ← Walk.engine (attempt (decideCondition env run c)) with
  | .error f =>
    let error := conditionError f
    let _ ← Walk.engine
      (record env run.id node.id node.type.text number .failed (some error) none)
    failWalk env run.id ("Condition " ++ node.id ++ " could not be evaluated: " ++ error)
  | .ok result =>
    let handle := Handle.ofResult result
    let _ ← Walk.engine (record env run.id node.id node.type.text number .success none
      (some (.obj [("result", .bool result), ("branch", .str handle.text)])))
    goOn env run.id (graph.nextNodeId? node.id handle)

/-! ## Delays -/

/-- Suspends the run. -/
def executeDelay (env : Environment σ) (run : Run) (node : Node) (minutes : Int) : Walk σ Unit := do
  let time ← Walk.engine now
  let resumeAt ← Walk.engine (ofExcept (time.addMinutes minutes))
  if ← Walk.engine (stored env .suspend fun t => Database.suspend t run.id node.id resumeAt) then
    let number ← Walk.engine (nextAttempt env run.id node.id)
    let _ ← Walk.engine (record env run.id node.id node.type.text number .success none
      (some (.obj [("resume_at", .str resumeAt.isoText)])))
    Walk.settle (some .suspended)
  else Walk.halt

/-! ## Actions -/

/-- One attempt at an action for the contact as it is now. -/
def attemptAction (env : Environment σ) (run : Run) (node : Node) (number : Int) :
    Engine σ ActionResult := do
  match ← attempt (demand env (.getContact run.organization run.contact)) with
  | .error f => return .failed ("Could not load contact: " ++ f.text) f.isTransient
  | .ok none => return .failed ("Contact " ++ run.contact ++ " not found") false
  | .ok (some contact) =>
    dispatch env { run := run, node := node, contact := contact, attempt := number }

/-- Gives up an action whose attempt failed. -/
def giveUp (env : Environment σ) (run : Run) (node : Node) (number : Int) (r : ActionResult) :
    Walk σ Unit :=
  failWalk env run.id (node.type.text ++ " node " ++ node.id ++ " failed on attempt "
    ++ toString number ++ " (" ++ (if r.retryable then "retries exhausted" else "fatal error")
    ++ "): " ++ r.error.getD "None")

/-- One attempt at an action and what comes of it; `again` makes the next attempt. -/
def tryOnce (env : Environment σ) (graph : Graph) (run : Run) (node : Node) (number : Int)
    (again : Walk σ Unit) : Walk σ Unit := do
  let r ← Walk.engine (attemptAction env run node number)
  let _ ← Walk.engine (record env run.id node.id node.type.text number r.outcome r.error
    (if r.output.isEmpty then none else some (.obj r.output)))
  if r.ok then
    Walk.update fun p =>
      { p with outcome := { p.outcome with emitted := p.outcome.emitted ++ r.emitted } }
    goOn env run.id (graph.nextNodeId? node.id .default)
  else if !env.rules.strategy.shouldRetry number none (some r.retryable) then
    giveUp env run node number r
  else
    let u ← Walk.engine (monadLift (draw env))
    let delay ← Walk.engine (ofExcept (env.rules.strategy.delay u number))
    Walk.engine (wait env delay)
    let state ← Walk.engine (stateOf env run.id)
    if state = some .running then again
    else
      Walk.settle state
      Walk.halt

/-- Tries an action from attempt `number` on, with at most `left` further attempts. -/
def tryAction (env : Environment σ) (graph : Graph) (run : Run) (node : Node) :
    Nat → Int → Walk σ Unit
  | 0, number => tryOnce env graph run node number Walk.halt
  | left + 1, number =>
    tryOnce env graph run node number (tryAction env graph run node left (number + 1))

/-- Executes an action. A node that has used all its attempts is not tried again. -/
def executeAction (env : Environment σ) (graph : Graph) (run : Run) (node : Node) : Walk σ Unit := do
  let limit := env.rules.strategy.maxAttempts
  let number ← Walk.engine (nextAttempt env run.id node.id)
  let isUsedUp ← if limit < number then
      let succeeded ← Walk.engine (hasSuccess env run.id node.id)
      pure !succeeded
    else pure false
  if isUsedUp then
    failWalk env run.id (node.type.text ++ " node " ++ node.id ++ " already used all "
      ++ toString limit ++ " attempts")
  else tryAction env graph run node (limit - number).toNat number

/-! ## The walk -/

/-- Executes one node. -/
def executeNode (env : Environment σ) (graph : Graph) (run : Run) (node : Node) (resuming : Bool) :
    Walk σ Unit := do
  match node.config with
  | .trigger .. => goOn env run.id (graph.nextNodeId? node.id .default)
  | .condition c => executeCondition env graph run node c
  | .delay minutes =>
    let isOver ← if resuming then pure true
      else Walk.engine (hasSuccess env run.id node.id)
    if isOver then goOn env run.id (graph.nextNodeId? node.id .default)
    else executeDelay env run node minutes
  | _ => executeAction env graph run node

/-- Executes the node that the run is on, and `further` if the run is running still. -/
def takeStep (env : Environment σ) (graph : Graph) (run : Run) (further : Walk σ Unit) :
    Walk σ Unit := do
  Walk.update fun p => { p with outcome := { p.outcome with steps := p.outcome.steps + 1 } }
  let p ← Walk.progress
  match graph.node? p.node with
  | none => failWalk env run.id ("Node " ++ p.node ++ " is not in the graph")
  | some node =>
    executeNode env graph run node p.resuming
    Walk.update fun p => { p with resuming := false }
    if (← Walk.progress).outcome.state.isNone then further

/-- Does something to a run that is running. -/
def whileRunning (env : Environment σ) (run : String) (x : Walk σ Unit) : Walk σ Unit := do
  let state ← Walk.engine (stateOf env run)
  if state = some .running then x else Walk.settle state

/-- Executes nodes while the run is running, at most `left` of them. -/
def walk (env : Environment σ) (graph : Graph) (run : Run) : Nat → Walk σ Unit
  | 0 => whileRunning env run.id <| failWalk env run.id
      ("Run exceeded " ++ toString (graph.size + 1) ++ " steps in one advance")
  | left + 1 => whileRunning env run.id (takeStep env graph run (walk env graph run left))

/-! ## Graphs -/

/-- The graph of a definition that was parsed before. -/
def cached? (id : String) (graphs : List (String × Graph)) : Option Graph :=
  (graphs.find? fun p => p.1 == id).map (·.2)

/-- Keeps a graph unless there is one for the definition. -/
def remember (id : String) (graph : Graph) : Engine σ Unit :=
  modify fun w =>
    if (cached? id w.graphs).isSome then w else { w with graphs := w.graphs ++ [(id, graph)] }

/-- The graph that a stored value is. -/
def parse (raw : Value) : Except Failure Graph :=
  match Graph.ofValue raw with
  | .ok g => .ok g
  | .error problems => .error (.invalidGraph (problems.map GraphProblem.message))

/-- The graph of a definition. -/
def graphOf (env : Environment σ) (id : String) : Engine σ Graph := do
  match cached? id (← get).graphs with
  | some g => return g
  | none =>
    match ← look env .getDefinition fun db => db.definition? id with
    | none => throw (.invalidGraph ["definition " ++ id ++ " not found"])
    | some d =>
      let g ← ofExcept (parse d.graph)
      remember id g
      return g

/-! ## Runs -/

/-- Why a walk failed. -/
def crashText (node : String) : Failure → String
  | .invalidGraph problems =>
    "Definition graph is invalid: " ++ (Failure.invalidGraph problems).text
  | f => "Internal error on node " ++ node ++ ": " ++ f.text

/-- Walks a run that is running from the node it is on. -/
def walkRun (env : Environment σ) (resuming : Bool) (run : Run) : Engine σ Outcome := do
  let walking : Walk σ Unit := do
    let graph ← Walk.engine (graphOf env run.definition)
    walk env graph run (graph.size + 1)
  let w ← get
  let (result, p, after) := walking.run (⟨run.node, resuming, { run := run.id }⟩, w)
  set after
  let o ← match result with
    | .error (.failed f) => failRun env run.id (crashText p.node f) p.outcome
    | _ => pure p.outcome
  match o.state with
  | some _ => return o
  | none => return { o with state := ← stateOf env run.id }

/-- Executes a run from the node it is on, and hands the follow-up events that it caused to
`route`, whose failures are not its own. -/
def runFrom (env : Environment σ) (route : List Event → Engine σ Unit) (resuming : Bool)
    (id : String) : Engine σ Outcome := do
  interrupt env (if resuming then .resume else .advance)
  match ← look env .getRun fun db => db.run? id with
  | none => return { run := id }
  | some run =>
    if run.state ≠ .running then return { run := id, state := some run.state }
    else
      let o ← walkRun env resuming run
      if !o.emitted.isEmpty then
        let _ ← attempt (route o.emitted)
      return o

end Engine

end CrmAutomation
