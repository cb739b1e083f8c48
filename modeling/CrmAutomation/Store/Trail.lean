import CrmAutomation.Store.Database

/-!
# The audit trail

Every attempt at a node is recorded once and never changed. The trail tells which attempt comes
next (`nextAttempt`) and whether a node has done its work (`hasSuccess`), which keeps a resumed
run from sending the same mail twice.
-/

namespace CrmAutomation.Database

/-- Records an attempt; each attempt at a node of a run has one record. -/
def record (r : NodeRecord) (db : Database) : Except Failure (NodeRecord × Database) :=
  if !fitsColumn r.attempt then .error columnOverflow
  else if db.records.any fun o => o.run == r.run && o.node == r.node && o.attempt == r.attempt then
    .error (.system .integrity "")
  else .ok (r, { db with records := db.records ++ [r] })

/-- The records of a node of a run. -/
def recordsOf (db : Database) (run node : String) : List NodeRecord :=
  db.records.filter fun r => r.run == run && r.node == node

/-- Whether an attempt at a node has succeeded. -/
def hasSuccess (db : Database) (run node : String) : Bool :=
  (db.recordsOf run node).any fun r => r.outcome == .success

/-- The number of the next attempt: one more than the highest so far, from one on. -/
def nextAttempt (db : Database) (run node : String) : Int :=
  match (db.recordsOf run node).map (·.attempt) with
  | [] => 1
  | a :: rest => rest.foldl max a + 1

/-- The order of a history: by time, then by attempt. -/
def earlier (a b : NodeRecord) : Bool :=
  a.executedAt.micros < b.executedAt.micros
    || (a.executedAt == b.executedAt && a.attempt ≤ b.attempt)

/-- The records of a run, the oldest first. -/
def history (db : Database) (run : String) : List NodeRecord :=
  (db.records.filter fun r => r.run == run).mergeSort earlier

/-- The records of all runs of a contact, the newest first. -/
def contactHistory (db : Database) (organization contact : String) (limit : Int) : List NodeRecord :=
  let isOwn (run : Run) : Bool := run.organization == organization && run.contact == contact
  let own := db.records.filter fun r => db.runs.any fun run => run.id == r.run && isOwn run
  limited limit (own.mergeSort fun a b => b.executedAt.micros ≤ a.executedAt.micros)

end CrmAutomation.Database
