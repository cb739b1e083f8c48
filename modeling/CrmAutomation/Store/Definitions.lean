import CrmAutomation.Json.Table
import CrmAutomation.Store.Database

/-!
# Definitions in the database

A workflow is the set of definitions that share its id. Its latest version may be a draft, which
is edited in place; an edit of any other version begins the next one. At most one version is
published. Commands work on the row as it was read (`writeDraft`, `markPublished`), so that what
happens to it in between is not hidden.
-/

namespace CrmAutomation.Database

/-! ## Queries -/

/-- The versions of a workflow, the newest first. -/
def versions (db : Database) (workflow organization : String) : List Definition :=
  (db.definitions.filter fun d => d.workflow == workflow && d.organization == organization).mergeSort
    fun a b => b.version ≤ a.version

/-- The newest version of a workflow. -/
def latest (db : Database) (workflow organization : String) : Except Failure Definition :=
  match db.versions workflow organization with
  | d :: _ => .ok d
  | [] => .error (.notFound ("Workflow " ++ workflow ++ " not found"))

/-- The published version of a workflow. -/
def published? (db : Database) (workflow organization : String) : Option Definition :=
  db.definitions.find? fun d =>
    d.workflow == workflow && d.organization == organization && d.status == .known .published

/-- The published definitions of an organization that listen to a type of event, the longest
published first. -/
def publishedFor (db : Database) (organization triggerType : String) : List Definition :=
  let time (d : Definition) : Int := (d.publishedAt.map fun t => (t.micros : Int)).getD (-1)
  (db.definitions.filter fun d => d.organization == organization && d.status == .known .published
    && d.triggerType == some triggerType).mergeSort fun a b => time a ≤ time b

/-- Whether a definition is the newest version of its workflow in its organization. -/
def isLatest (db : Database) (d : Definition) : Bool :=
  db.definitions.all fun o =>
    !(o.workflow == d.workflow && o.organization == d.organization) || o.version ≤ d.version

/-- The workflows of an organization, each with the newest version that it has there. -/
def newestVersions (db : Database) (organization : String) : List (String × Int) :=
  (db.definitions.filter fun d => d.organization == organization && db.isLatest d).map
    fun d => (d.workflow, d.version)

/-- One page of the newest versions of the workflows of an organization, the last changed first, and
their number. The rows are found by workflow and version, whatever their organization. -/
def listLatest (db : Database) (organization : String) (offset limit : Int) : List Definition × Nat :=
  let latest := db.newestVersions organization
  let newest := db.definitions.filter fun d => latest.contains (d.workflow, d.version)
  (page offset limit (newest.mergeSort fun a b => b.updatedAt.micros ≤ a.updatedAt.micros),
    latest.length)

/-! ## Writes -/

/-- Adds a definition. Ids are unique, and so are the versions of a workflow. -/
def insertDefinition (d : Definition) (db : Database) : Except Failure (Definition × Database) :=
  if !fitsColumn d.version then .error columnOverflow
  else if db.definitions.any fun o =>
      o.id == d.id || (o.workflow == d.workflow && o.version == d.version) then
    .error (.system .integrity "")
  else .ok (d, { db with definitions := db.definitions ++ [d] })

/-- Changes the definition `id`. -/
def updateDefinition (id : String) (change : Definition → Definition) (db : Database) : Database :=
  { db with definitions := db.definitions.map fun d => if d.id == id then change d else d }

/-- Removes the definition `id`. -/
def dropDefinition (id : String) (db : Database) : Database :=
  { db with definitions := db.definitions.filter fun d => d.id != id }

/-- The graph of a workflow that has none yet. -/
def emptyGraph : Value := .obj [("nodes", .list []), ("edges", .list [])]

/-- Adds the first version of a workflow, a draft. -/
def createWorkflow (now : Instant) (workflow id organization name description : String)
    (graph : Value) (createdBy : Option String) (db : Database) :
    Except Failure (Definition × Database) :=
  db.insertDefinition {
    id := id
    workflow := workflow
    organization := organization
    name := name
    description := description
    status := .known .draft
    version := 1
    graph := graph.orElse emptyGraph
    triggerType := none
    publishedAt := none
    createdBy := createdBy
    createdAt := now
    updatedAt := now }

/-! ## Edits -/

/-- An edit of a workflow; what is not given stays. -/
structure Edit where
  graph : Option Value := none
  name : Option String := none
  description : Option String := none
  createdBy : Option String := none

/-- Whether an edit differs from a definition. -/
def Edit.changes (e : Edit) (d : Definition) : Bool :=
  e.graph.any (fun g => !d.graph.same g) || e.name.any (· != d.name)
    || e.description.any (· != d.description)

/-- A definition with the parts of an edit that differ from what was read. -/
def Edit.apply (e : Edit) (read d : Definition) : Definition :=
  { d with
    graph := match e.graph with
      | some g => if read.graph.same g then d.graph else g
      | none => d.graph
    name := match e.name with
      | some n => if n = read.name then d.name else n
      | none => d.name
    description := match e.description with
      | some t => if t = read.description then d.description else t
      | none => d.description }

/-- The row of a definition as it is now. -/
def reread (d : Definition) (db : Database) : Definition := (db.definition? d.id).getD d

/-- Edits the draft that was read. -/
def editDraft (now : Instant) (read : Definition) (e : Edit) (db : Database) :
    Definition × Database :=
  if e.changes read then
    let after := db.updateDefinition read.id fun d => { e.apply read d with updatedAt := now }
    (after.reread read, after)
  else (db.reread read, db)

/-- The graph that the next version starts with. -/
def nextGraph (read : Definition) (e : Edit) : Except Failure Value :=
  match e.graph with
  | some g => .ok g
  | none => return .obj (← Table.ofValue (read.graph.orElse emptyGraph)).document

/-- Adds the version after the one that was read, a draft. -/
def beginDraft (now : Instant) (id : String) (read : Definition) (e : Edit) (db : Database) :
    Except Failure (Definition × Database) := do
  let name := e.name.getD ""
  let graph ← nextGraph read e
  db.insertDefinition {
    id := id
    workflow := read.workflow
    organization := read.organization
    name := if name = "" then read.name else name
    description := e.description.getD read.description
    status := .known .draft
    version := read.version + 1
    graph := graph
    triggerType := none
    publishedAt := none
    createdBy := e.createdBy
    createdAt := now
    updatedAt := now }

/-- Saves an edit of the newest version that was read. -/
def writeDraft (now : Instant) (id : String) (read : Definition) (e : Edit) (db : Database) :
    Except Failure (Definition × Database) :=
  if read.status = .known .draft then .ok (db.editDraft now read e) else db.beginDraft now id read e

/-! ## Lifecycle -/

/-- Gives a definition another status. -/
def setStatus (now : Instant) (id : String) (status : WorkflowStatus) : Database → Database :=
  updateDefinition id fun d => { d with status := .known status, updatedAt := now }

/-- Publishes the draft that was read and archives the version published before. The graph must have
been validated. -/
def markPublished (now : Instant) (read : Definition) (triggerType : Option String) (db : Database) :
    Except Failure (Definition × Database) :=
  if read.status ≠ .known .draft then
    .error (.conflict ("Version " ++ toString read.version ++ " is " ++ read.status.text
      ++ ", only drafts can be published"))
  else
    let freed := match db.published? read.workflow read.organization with
      | some previous => db.setStatus now previous.id .archived
      | none => db
    let after := freed.updateDefinition read.id fun d =>
      { d with
        status := .known .published
        triggerType := triggerType.or d.triggerType
        publishedAt := some now
        updatedAt := now }
    .ok (after.reread read, after)

/-- Archives the published version of a workflow. -/
def archive (now : Instant) (workflow organization : String) (db : Database) :
    Except Failure (Definition × Database) :=
  match db.published? workflow organization with
  | none => .error (.notFound ("Workflow " ++ workflow ++ " has no published version"))
  | some d =>
    let after := db.setStatus now d.id .archived
    .ok (after.reread d, after)

end CrmAutomation.Database
