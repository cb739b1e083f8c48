import CrmAutomation.Failure

/-!
# Retries

A `RetryStrategy` says how often an operation is tried and how long to wait in between: after
failed attempt `n` the wait is `baseDelay * 2 ^ (n - 1)`, at most `maxDelay`, spread by the
jitter and rounded to milliseconds (`RetryStrategy.delay`). `RetryStrategy.execute` tries an
operation until it succeeds, fails for good or has used its attempts.
-/

namespace CrmAutomation

/-- Whether the waits grow, or there is a single attempt. -/
inductive RetryPolicy where
  | exponential
  | none
  deriving DecidableEq, Repr

def RetryPolicy.text : RetryPolicy → String
  | .exponential => "exponential"
  | .none => "none"

/-- When and how often to try again. -/
structure RetryStrategy where
  policy : RetryPolicy
  maxAttempts : Int
  baseDelay : Double
  maxDelay : Double
  jitter : Bool
  jitterRange : Double
  /-- Whether the base delay is a whole number, whose doublings are exact and never overflow. -/
  wholeBase : Bool
  deriving Repr

namespace RetryStrategy

/-- One half. -/
def half : Double := .ofRatio false 1 2

/-- A single attempt. -/
def single : RetryStrategy := ⟨.none, 1, .ofInt 1, .ofInt 300, false, half, false⟩

/-- Waits that double. -/
def exponential (maxAttempts : Int) (baseDelay maxDelay : Double) (jitter : Bool) : RetryStrategy :=
  ⟨.exponential, maxAttempts, baseDelay, maxDelay, jitter, half, false⟩

/-- The strategy of a deployment: with at most one attempt there is nothing to wait for. -/
def ofSettings (maxAttempts : Int) (baseDelay maxDelay : Double) : RetryStrategy :=
  if maxAttempts ≤ 1 then single else exponential maxAttempts baseDelay maxDelay true

/-- The strategy of actions when nothing is configured. -/
def forActions : RetryStrategy := exponential 5 (.ofInt 2) (.ofInt 60) true

/-- The strategy of reads from the services of the CRM. -/
def forReads : RetryStrategy := exponential 3 half (.ofInt 5) true

/-- The strategies known by name. -/
def presets : List (String × RetryStrategy) :=
  [("none", single), ("actions", forActions), ("collaborator_read", forReads)]

/-- The exponent from which on a power of two is no finite double. -/
def maxDoublings : Int := 1024

/-- `2 ^ n` as a double. -/
def powerOfTwo (n : Int) : Except Failure Double :=
  if maxDoublings ≤ n then .error (.system .overflow "int too large to convert to float")
  else if 0 ≤ n then .ok (.ofRatio false (Nat.pow 2 n.toNat) 1)
  else if n < -1100 then .ok .zero
  else .ok (.ofRatio false 1 (Nat.pow 2 (-n).toNat))

/-- The wait after failed attempt `attempt`, cap, jitter and rounding aside. -/
def backoff (s : RetryStrategy) (attempt : Int) : Except Failure Double :=
  match s.policy with
  | .none => .ok .zero
  | .exponential =>
    if s.wholeBase && decide (maxDoublings < attempt) then
      .ok (if s.baseDelay.isZero then .zero else .infinite s.baseDelay.isNegative)
    else do return s.baseDelay.mul (← powerOfTwo (attempt - 1))

/-- A number between `low` and `high`, at `draw` of the way. -/
def uniform (low high draw : Double) : Double := low.add ((high.sub low).mul draw)

/-- The wait with jitter. -/
def spread (s : RetryStrategy) (draw wait : Double) : Double :=
  if s.jitter && Double.lt .zero wait then
    let width := wait.mul s.jitterRange
    Double.max .zero (wait.add (uniform width.neg width draw))
  else wait

/-- The seconds to wait after failed attempt `attempt`; `draw` is the random number in
`[0, 1)`. -/
def delay (s : RetryStrategy) (draw : Double) (attempt : Int) : Except Failure Double := do
  let wait := Double.min (← s.backoff attempt) s.maxDelay
  return (s.spread draw wait).roundPlaces 3

/-- Whether another attempt may follow failed attempt `attempt`. An explicit classification
takes precedence over the failure. -/
def shouldRetry (s : RetryStrategy) (attempt : Int) (failure : Option Failure)
    (retryable : Option Bool) : Bool :=
  if s.policy = .none ∨ s.maxAttempts ≤ attempt then false
  else match retryable, failure with
    | some r, _ => r
    | none, some f => f.isTransient
    | none, none => true

/-- Tries `call` from attempt `attempt` on, with at most `left` further attempts. `wait` is told
the attempt that failed, its failure and the delay. -/
def executeFrom {σ α : Type} (s : RetryStrategy) (draw : StateM σ Double)
    (wait : Int → Failure → Double → StateM σ Unit) (call : StateM σ (Except Failure α)) :
    Nat → Int → StateM σ (Except Failure α)
  | 0, _ => call
  | left + 1, attempt => do
    match ← call with
    | .ok a => return .ok a
    | .error f =>
      if s.shouldRetry attempt (some f) none then
        match s.delay (← draw) attempt with
        | .error g => return .error g
        | .ok d =>
          wait attempt f d
          executeFrom s draw wait call left (attempt + 1)
      else return .error f

/-- Tries `call` until it succeeds, fails for good or has used its attempts. -/
def execute {σ α : Type} (s : RetryStrategy) (draw : StateM σ Double)
    (wait : Int → Failure → Double → StateM σ Unit) (call : StateM σ (Except Failure α)) :
    StateM σ (Except Failure α) :=
  executeFrom s draw wait call (s.maxAttempts - 1).toNat 1

end RetryStrategy

end CrmAutomation
