import CrmAutomation.Contact
import CrmAutomation.Number.Double
import CrmAutomation.Store.Database

/-!
# What surrounds the engine

The engine stands between a database and the services of the CRM, and neither of them is under its
control. A `Host` says what happens around every call: which runs are cancelled by others
meanwhile, whether the call fails, and what a service answers. Everything that is said about
the engine for every host holds whatever its surroundings do.
-/

namespace CrmAutomation

/-! ## Calls -/

/-- The calls of the engine that reach the database, or that a worker makes as a whole. -/
inductive StorageCall where
  | getRun
  | getState
  | getDefinition
  | publishedFor
  | create
  | moveTo
  | suspend
  | complete
  | fail
  | cancel
  | dueRuns
  | staleRuns
  | claimSuspended
  | claimStale
  | release
  | record
  | hasSuccess
  | nextAttempt
  | advance
  | resume
  | handleEvent
  deriving DecidableEq, Repr

/-- The services of the CRM. -/
inductive ServiceName where
  | pipeline
  | messaging
  | webhooks
  deriving DecidableEq, Repr

def ServiceName.all : List ServiceName := [.pipeline, .messaging, .webhooks]

def ServiceName.text : ServiceName → String
  | .pipeline => "pipeline"
  | .messaging => "messaging"
  | .webhooks => "webhooks"

/-- A mail to be sent. -/
structure Mail where
  contact : String
  template : String
  address : String
  mergeFields : Members
  fromName : Option String
  key : String

/-- A payload to be delivered. -/
structure Delivery where
  contact : String
  endpoint : String
  payload : Members
  id : String
  timeout : Double

/-- A call to a service of the CRM, made for an organization. -/
inductive ServiceCall where
  | getContact (organization contact : String)
  | setStage (organization contact stage : String)
  | addTag (organization contact tag : String)
  | removeTag (organization contact tag : String)
  | stageExists (organization stage : String)
  | tagExists (organization tag : String)
  | templateExists (organization template : String)
  | endpointExists (organization endpoint : String)
  | sendTemplate (organization : String) (mail : Mail)
  | deliver (organization : String) (delivery : Delivery)
  | close (service : ServiceName)

/-- What a service call brings when it succeeds. -/
def ServiceCall.Result : ServiceCall → Type
  | .getContact .. => Option Contact
  | .stageExists .. => Bool
  | .tagExists .. => Bool
  | .templateExists .. => Bool
  | .endpointExists .. => Bool
  | .sendTemplate .. => Value
  | .deliver .. => Int
  | _ => Unit

/-! ## Reactions -/

/-- What a service call comes to. -/
inductive Answer (α : Type) where
  | value (a : α)
  | failure (f : Failure)
  | silence

/-- What happens around a call to the database: runs that are cancelled before it, and a failure that
keeps it from having an effect. -/
structure Interruption where
  cancelled : List String
  failure : Option Failure

/-- What happens around a service call: runs that are cancelled before it, and its answer. -/
structure Reaction (α : Type) where
  cancelled : List String
  answer : Answer α

/-- The kinds of identifiers that are made up. -/
inductive IdKind where
  | workflow
  | definition (workflow : String) (version : Int)
  | run
  | event
  | request
  deriving DecidableEq, Repr

/-- The surroundings of the engine, with a state of their own. -/
structure Host (σ : Type) where
  freshId : IdKind → Database → σ → String × σ
  draw : σ → Double × σ
  storage : StorageCall → Database → σ → Interruption × σ
  service : (c : ServiceCall) → Database → σ → Reaction c.Result × σ
  wait : Double → Database → σ → List String × σ

end CrmAutomation
