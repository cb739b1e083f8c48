import CrmAutomation.Instant
import CrmAutomation.Vocabulary

/-!
# The database

Three tables: the versions of workflow definitions, the runs on them, and one record for every
attempt at a node of a run. Rows stand in the order in which they were written. A run that is
running or suspended holds the slot of its definition and contact, its `activeKey`.
-/

namespace CrmAutomation

/-- The status that a row has: a stage of the lifecycle, or a text that is none. -/
inductive RowStatus where
  | known (status : WorkflowStatus)
  | other (text : String)
  deriving DecidableEq, Repr, Inhabited

namespace RowStatus

def text : RowStatus → String
  | .known s => s.text
  | .other t => t

def ofText (s : String) : RowStatus :=
  match WorkflowStatus.ofText? s with
  | some status => .known status
  | none => .other s

end RowStatus

/-- One version of a workflow. -/
structure Definition where
  id : String
  workflow : String
  organization : String
  name : String
  description : String
  status : RowStatus
  version : Int
  graph : Value
  triggerType : Option String
  publishedAt : Option Instant
  createdBy : Option String
  createdAt : Instant
  updatedAt : Instant
  deriving Inhabited

/-- One execution of a definition for one contact. -/
structure Run where
  id : String
  organization : String
  workflow : String
  definition : String
  version : Int
  contact : String
  node : String
  state : RunState
  resumeAt : Option Instant
  startedAt : Instant
  completedAt : Option Instant
  error : Option String
  event : Value
  chainDepth : Int
  lock : Int
  activeKey : Option String
  updatedAt : Instant
  deriving Inhabited

/-- One attempt at one node of one run. -/
structure NodeRecord where
  run : String
  node : String
  nodeType : String
  attempt : Int
  outcome : NodeOutcome
  error : Option String
  output : Option Value
  executedAt : Instant
  deriving Inhabited

/-- The rows of the three tables. -/
structure Database where
  definitions : List Definition
  runs : List Run
  records : List NodeRecord
  deriving Inhabited

/-- The slot of a definition and contact. -/
def activeKeyOf (definition contact : String) : String := definition ++ ":" ++ contact

namespace Database

def empty : Database := ⟨[], [], []⟩

/-- The first rows of a list; a negative limit is none. -/
def limited {α : Type} (limit : Int) (rows : List α) : List α :=
  if limit < 0 then rows else rows.take limit.toNat

/-- One page of a list. -/
def page {α : Type} (offset limit : Int) (rows : List α) : List α :=
  limited limit (rows.drop offset.toNat)

def run? (db : Database) (id : String) : Option Run := db.runs.find? fun r => r.id == id

def definition? (db : Database) (id : String) : Option Definition :=
  db.definitions.find? fun d => d.id == id

/-- The integers that a column can hold. -/
def fitsColumn (i : Int) : Bool := -Int.pow 2 63 ≤ i && i < Int.pow 2 63

/-- A number that no column can hold. -/
def columnOverflow : Failure :=
  .system .overflow "Python int too large to convert to SQLite INTEGER"

/-- A number as a query or a row takes it. -/
def bound (i : Int) : Except Failure Int := if fitsColumn i then .ok i else .error columnOverflow

end Database

end CrmAutomation
