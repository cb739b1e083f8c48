import CrmAutomation.Engine.Host
import CrmAutomation.Engine.Turns
import CrmAutomation.Graph.Basic
import CrmAutomation.Settings
import CrmAutomation.Store.Runs

/-!
# Computations of the engine

`Engine σ α` is a computation over a `World`: the database, the clock, the graphs parsed so far,
what was asked of the services, and the state of the host. It may fail, and what it did until then stays done.
`Engine.stored` makes a call to the database and `Engine.ask` one to a service, each in the
surroundings that the host decides.
-/

namespace CrmAutomation

/-- All that a computation sees and changes. -/
structure World (σ : Type) where
  db : Database
  clock : Instant
  graphs : List (String × Graph)
  turns : Turns (String × String)
  calls : List ServiceCall
  waits : List Double
  host : σ

/-- The rules that the engine works by. -/
structure Rules where
  strategy : RetryStrategy
  actionTimeout : Double
  webhookTimeout : Double
  emitFollowUps : Bool
  maxChainDepth : Int
  batchSize : Int
  maxConcurrency : Int
  staleAfterSeconds : Int

/-- The rules that settings give. -/
def Settings.rules (s : Settings) : Rules where
  strategy := s.retryStrategy
  actionTimeout := s.actionTimeout
  webhookTimeout := s.webhookTimeout
  emitFollowUps := s.emitFollowUps
  maxChainDepth := s.maxChainDepth
  batchSize := s.batchSize
  maxConcurrency := s.maxConcurrency
  staleAfterSeconds := s.staleAfterSeconds

/-- What a computation works with: its host and its rules. -/
structure Environment (σ : Type) where
  host : Host σ
  rules : Rules

/-- A computation of the engine. -/
abbrev Engine (σ : Type) := ExceptT Failure (StateM (World σ))

namespace Engine

variable {σ α : Type}

/-- The present time. Every reading is one microsecond after the one before. -/
def now : Engine σ Instant := do
  modify fun w => { w with clock := w.clock.later 1 }
  return (← get).clock

/-- The result of a computation, a failure being a value. -/
def attempt (x : Engine σ α) : Engine σ (Except Failure α) :=
  ExceptT.mk (do return .ok (← x.run))

/-- A failure or a value as a computation. -/
def ofExcept (r : Except Failure α) : Engine σ α := ExceptT.mk (pure r)

/-- The database with some runs cancelled. -/
def cancelAll (now : Instant) (ids : List String) (db : Database) : Database :=
  ids.foldl (fun d id => (d.cancel now id).2) db

/-- Lets others cancel runs. -/
def concede (ids : List String) : Engine σ Unit := do
  let time ← now
  modify fun w => { w with db := cancelAll time ids w.db }

/-- A made-up identifier. -/
def freshId (env : Environment σ) (kind : IdKind) : Engine σ String := do
  let w ← get
  let (id, host) := env.host.freshId kind w.db w.host
  set { w with host := host }
  return id

/-- A random number. -/
def draw (env : Environment σ) : StateM (World σ) Double := do
  let w ← get
  let (d, host) := env.host.draw w.host
  set { w with host := host }
  return d

/-- What the host does before a call to the database: it may cancel runs, and make the call fail. -/
def interrupt (env : Environment σ) (call : StorageCall) : Engine σ Unit := do
  let w ← get
  let (i, host) := env.host.storage call w.db w.host
  set { w with host := host }
  concede i.cancelled
  match i.failure with
  | some f => throw f
  | none => return ()

/-- Reads the database. -/
def look (env : Environment σ) (call : StorageCall) (read : Database → α) : Engine σ α := do
  interrupt env call
  return read (← get).db

/-- Changes the database. -/
def stored (env : Environment σ) (call : StorageCall)
    (change : Instant → Database → α × Database) : Engine σ α := do
  interrupt env call
  let time ← now
  let w ← get
  let (a, db) := change time w.db
  set { w with db := db }
  return a

/-- Cancels a run; one that has ended stays as it is. -/
def cancel (env : Environment σ) (run : String) : Engine σ Bool :=
  stored env .cancel fun time => Database.cancel time run

/-- Makes a change of the database that may be refused. -/
def commit (change : Instant → Database → Except Failure (α × Database)) : Engine σ α := do
  let time ← now
  let w ← get
  let (a, db) ← ofExcept (change time w.db)
  set { w with db := db }
  return a

/-- Calls a service. -/
def ask (env : Environment σ) (call : ServiceCall) : Engine σ (Answer call.Result) := do
  modify fun w => { w with calls := w.calls ++ [call] }
  let w ← get
  let (r, host) := env.host.service call w.db w.host
  set { w with host := host }
  concede r.cancelled
  return r.answer

/-- Calls a service that has to answer: silence counts as a timeout. -/
def demand (env : Environment σ) (call : ServiceCall) : Engine σ call.Result := do
  match ← ask env call with
  | .value a => return a
  | .failure f => throw f
  | .silence => throw (.system .timeout "")

/-- Waits before another attempt. -/
def wait (env : Environment σ) (delay : Double) : Engine σ Unit := do
  modify fun w => { w with waits := w.waits ++ [delay] }
  let w ← get
  let (cancelled, host) := env.host.wait delay w.db w.host
  set { w with host := host }
  concede cancelled

end Engine

end CrmAutomation
