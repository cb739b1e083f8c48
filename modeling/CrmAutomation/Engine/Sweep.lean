import CrmAutomation.Engine.Matching

/-!
# Sweeps

A sweep resumes the suspended runs that are due, and takes over running runs that were not touched
for long. Each run is claimed before it is executed, so of several workers one gets it; the
others count it as lost. A due run that cannot be resumed is given back for the next sweep.
-/

namespace CrmAutomation

/-- What a sweep did. -/
structure SweepReport where
  due : Nat := 0
  claimed : Nat := 0
  lost : Nat := 0
  recovered : Nat := 0
  errors : List String := []
  deriving DecidableEq, Repr

/-- A report with the failure of one run. -/
def SweepReport.addError (r : SweepReport) (c : Claim) (f : Failure) : SweepReport :=
  { r with errors := r.errors ++ [c.run ++ ": " ++ f.text] }

namespace Engine

variable {σ : Type}

/-! ## Claims -/

/-- The suspended runs that are due. -/
def dueRuns (env : Environment σ) (time : Instant) (limit : Int) : Engine σ (List Claim) := do
  let claims ← look env .dueRuns fun db => return db.dueRuns time (← Database.bound limit)
  ofExcept claims

/-- The running runs that were not touched since `cutoff`. -/
def staleRuns (env : Environment σ) (cutoff : Instant) (limit : Int) : Engine σ (List Claim) := do
  let claims ← look env .staleRuns fun db => return db.staleRuns cutoff (← Database.bound limit)
  ofExcept claims

/-- A write that compares a lock and raises it by one; a column has to hold both locks. -/
def raiseLock (env : Environment σ) (call : StorageCall) (lock : Int)
    (change : Instant → Database → Bool × Database) : Engine σ Bool := do
  interrupt env call
  if Database.fitsColumn lock && Database.fitsColumn (lock + 1) then
    commit fun time db => .ok (change time db)
  else throw Database.columnOverflow

def claimSuspended (env : Environment σ) (c : Claim) : Engine σ Bool :=
  raiseLock env .claimSuspended c.lock fun time => Database.claimSuspended time c

def claimStale (env : Environment σ) (c : Claim) : Engine σ Bool :=
  raiseLock env .claimStale c.lock fun time => Database.claimStale time c

/-- Gives a claimed run back. -/
def release (env : Environment σ) (c : Claim) (resumeAt : Instant) : Engine σ Bool :=
  raiseLock env .release (c.lock + 1) fun time => Database.release time c resumeAt

/-- Gives a claimed run back if there is a time at which it is due again. -/
def giveBack (env : Environment σ) (c : Claim) : Option Instant → Engine σ Unit
  | none => return ()
  | some resumeAt => do
    let _ ← attempt (release env c resumeAt)

/-- Claims a run with `take` and executes it with `run`. One that could not be executed is due
again at `releaseAt`. -/
def handleClaim (env : Environment σ) (take : Claim → Engine σ Bool)
    (run : String → Engine σ Outcome) (releaseAt : Option Instant) (r : SweepReport) (c : Claim) :
    Engine σ SweepReport := do
  match ← attempt (take c) with
  | .error f => return r.addError c f
  | .ok false => return { r with lost := r.lost + 1 }
  | .ok true =>
    let r := { r with claimed := r.claimed + 1 }
    match ← attempt (run c.run) with
    | .ok _ => return r
    | .error f =>
      giveBack env c releaseAt
      return r.addError c f

/-- Handles claims one after the other. -/
def handleClaims (env : Environment σ) (take : Claim → Engine σ Bool)
    (run : String → Engine σ Outcome) (releaseAt : Option Instant) :
    SweepReport → List Claim → Engine σ SweepReport
  | r, [] => return r
  | r, c :: rest => do
    handleClaims env take run releaseAt (← handleClaim env take run releaseAt r c) rest

/-- Handles claims if there is a place to work on them. -/
def handleAll (env : Environment σ) (take : Claim → Engine σ Bool)
    (run : String → Engine σ Outcome) (releaseAt : Option Instant) (r : SweepReport)
    (claims : List Claim) : Engine σ SweepReport :=
  if !claims.isEmpty && env.rules.maxConcurrency < 0 then
    throw (.system .valueError "Semaphore initial value must be >= 0")
  else handleClaims env take run releaseAt r claims

/-! ## Sweeping -/

/-- Takes over stale runs; the report counts them as recovered. -/
def recoverStale (env : Environment σ) (time : Instant) (r : SweepReport) :
    Engine σ SweepReport := do
  let cutoff ← ofExcept (time.addSeconds (-env.rules.staleAfterSeconds))
  let claims ← staleRuns env cutoff env.rules.batchSize
  let after ← handleAll env (claimStale env) (advance env) none r claims
  return { after with claimed := r.claimed, recovered := after.claimed - r.claimed }

/-- Resumes the runs that are due at `time`, and takes over stale ones. -/
def sweepAt (env : Environment σ) (time : Instant) : Engine σ SweepReport := do
  let claims ← dueRuns env time env.rules.batchSize
  let r ← handleAll env (claimSuspended env) (resume env) (some time)
    { due := claims.length } claims
  recoverStale env time r

/-- Sweeps at the present time. -/
def sweep (env : Environment σ) : Engine σ SweepReport := do sweepAt env (← now)

/-- Sweeps a number of times, whether or not a sweep fails. -/
def sweepTimes (env : Environment σ) : Nat → Engine σ (List (Except Failure SweepReport))
  | 0 => return []
  | n + 1 => do
    let r ← attempt (sweep env)
    return r :: (← sweepTimes env n)

end Engine

end CrmAutomation
