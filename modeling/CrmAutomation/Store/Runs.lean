import CrmAutomation.Store.Database

/-!
# Runs in the database

Every change of a run is one guarded write: progress applies only while the run is running, a
claim compares the run's lock and raises it, and every end of a run frees its slot. So no two
workers overwrite each other, and of two claims with the same lock one is refused.
-/

namespace CrmAutomation

/-- A run that may be claimed, and the lock it had when it was seen. -/
structure Claim where
  run : String
  lock : Int
  deriving DecidableEq, Repr, Inhabited

/-- The length that error texts are cut to. -/
def maxErrorLength : Nat := 2000

namespace Database

/-- Changes the run `id` if it passes the guard; says whether it did. -/
def updateRun (id : String) (guard : Run → Bool) (change : Run → Run) (db : Database) :
    Bool × Database :=
  let isTarget (r : Run) : Bool := r.id == id && guard r
  (db.runs.any isTarget,
    { db with runs := db.runs.map fun r => if isTarget r then change r else r })

def isRunning (r : Run) : Bool := r.state == .running

/-- Adds a running run unless its slot is taken. -/
def createRun (now : Instant) (id : String) (d : Definition) (contact node : String) (event : Value)
    (chainDepth : Int) (db : Database) : Option Run × Database :=
  let key := activeKeyOf d.id contact
  if db.runs.any fun r => r.id == id || r.activeKey == some key then (none, db)
  else
    let run : Run := {
      id := id
      organization := d.organization
      workflow := d.workflow
      definition := d.id
      version := d.version
      contact := contact
      node := node
      state := .running
      resumeAt := none
      startedAt := now
      completedAt := none
      error := none
      event := event
      chainDepth := chainDepth
      lock := 0
      activeKey := some key
      updatedAt := now }
    (some run, { db with runs := db.runs ++ [run] })

/-! ## Progress -/

/-- Puts a running run onto a node. -/
def moveTo (now : Instant) (id node : String) : Database → Bool × Database :=
  updateRun id isRunning fun r => { r with node := node, updatedAt := now }

/-- Suspends a running run on a node until `resumeAt`. -/
def suspend (now : Instant) (id node : String) (resumeAt : Instant) : Database → Bool × Database :=
  updateRun id isRunning fun r =>
    { r with node := node, state := .suspended, resumeAt := some resumeAt, updatedAt := now }

/-- The run at its end. -/
def ended (now : Instant) (state : RunState) (error : Option String) (r : Run) : Run :=
  { r with
    state := state
    error := error
    completedAt := some now
    resumeAt := none
    activeKey := none
    updatedAt := now }

/-- Completes a running run. -/
def complete (now : Instant) (id : String) : Database → Bool × Database :=
  updateRun id isRunning fun r => ended now .completed r.error r

/-- An error text as it is stored. -/
def storedError (error : String) : String := String.ofList (error.toList.take maxErrorLength)

/-- Fails a running run. -/
def fail (now : Instant) (id error : String) : Database → Bool × Database :=
  updateRun id isRunning (ended now .failed (some (storedError error)))

/-- Cancels a run that has not ended. -/
def cancel (now : Instant) (id : String) : Database → Bool × Database :=
  updateRun id (fun r => r.state.isActive) fun r => ended now .cancelled r.error r

/-! ## Claims -/

/-- Runs in the order of a time. -/
def inOrder (time : Run → Nat) (runs : List Run) : List Run :=
  runs.mergeSort fun a b => time a ≤ time b

def claimOf (r : Run) : Claim := ⟨r.id, r.lock⟩

/-- The suspended runs that are due, the longest due first. -/
def dueRuns (now : Instant) (limit : Int) (db : Database) : List Claim :=
  let due := db.runs.filter fun r => r.state == .suspended
    && (match r.resumeAt with
      | some t => t.notAfter now
      | none => false)
  (limited limit (inOrder (fun r => (r.resumeAt.map (·.micros)).getD 0) due)).map claimOf

/-- The running runs that were not touched since before `cutoff`, the longest untouched first. -/
def staleRuns (cutoff : Instant) (limit : Int) (db : Database) : List Claim :=
  let stale := db.runs.filter fun r => isRunning r && r.updatedAt.before cutoff
  (limited limit (inOrder (fun r => r.updatedAt.micros) stale)).map claimOf

/-- Takes a suspended run that still has the lock of the claim. -/
def claimSuspended (now : Instant) (c : Claim) : Database → Bool × Database :=
  updateRun c.run (fun r => r.state == .suspended && r.lock == c.lock) fun r =>
    { r with state := .running, resumeAt := none, lock := c.lock + 1, updatedAt := now }

/-- Gives a claimed run back; it is due at `resumeAt`. A run that has ended or was taken over since
is left alone. -/
def release (now : Instant) (c : Claim) (resumeAt : Instant) : Database → Bool × Database :=
  updateRun c.run (fun r => isRunning r && r.lock == c.lock + 1) fun r =>
    { r with state := .suspended, resumeAt := some resumeAt, lock := c.lock + 2, updatedAt := now }

/-- Takes over a running run that still has the lock of the claim. -/
def claimStale (now : Instant) (c : Claim) : Database → Bool × Database :=
  updateRun c.run (fun r => isRunning r && r.lock == c.lock) fun r =>
    { r with lock := c.lock + 1, updatedAt := now }

/-! ## Lists -/

/-- What a list of runs is narrowed to: contacts, workflows and states, or any. -/
structure RunFilter where
  contacts : Option (List String) := none
  workflows : Option (List String) := none
  states : Option (List String) := none

/-- Whether a run passes a filter. -/
def RunFilter.admits (f : RunFilter) (r : Run) : Bool :=
  f.contacts.all (·.contains r.contact) && f.workflows.all (·.contains r.workflow)
    && f.states.all (·.contains r.state.text)

/-- One page of the runs of an organization, the latest started first, and their number. -/
def listRuns (organization : String) (f : RunFilter) (offset limit : Int) (db : Database) :
    List Run × Nat :=
  let all := db.runs.filter fun r => r.organization == organization && f.admits r
  let sorted := all.mergeSort fun a b => b.startedAt.micros ≤ a.startedAt.micros
  (page offset limit sorted, all.length)

/-- A run of an organization. -/
def runOf (organization id : String) (db : Database) : Except Failure Run :=
  match db.runs.find? fun r => r.id == id && r.organization == organization with
  | some r => .ok r
  | none => .error (.notFound ("Run " ++ id ++ " not found"))

end Database

end CrmAutomation
