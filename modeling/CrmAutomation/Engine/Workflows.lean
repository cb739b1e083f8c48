import CrmAutomation.Engine.Monad
import CrmAutomation.Graph.Validation
import CrmAutomation.Store.Cell
import CrmAutomation.Store.Definitions

/-!
# Editing and publishing workflows

A workflow is created as a draft and edited as one. A draft is published when its graph has no defect: none that can be seen in the graph itself, and
none in what it refers to. The services are asked about every stage, tag, template and endpoint of
a graph that is sound in itself; a service that fails leaves the reference unverified, which is a
defect too.
-/

namespace CrmAutomation

namespace Engine

variable {σ : Type}

/-! ## Editing -/

/-- The newest version of a workflow. -/
def latest (workflow organization : String) : Engine σ Definition := do
  ofExcept ((← get).db.latest workflow organization)

/-- Creates a workflow. -/
def createWorkflow (env : Environment σ) (organization name description : String) (graph : Value)
    (createdBy : Option String) : Engine σ Definition := do
  let workflow ← freshId env .workflow
  let id ← freshId env (.definition workflow 1)
  commit fun time =>
    Database.createWorkflow time workflow id organization name description graph createdBy

/-- Saves an edit: in the newest version if that is a draft, else in the next one. -/
def saveDraft (env : Environment σ) (workflow organization : String) (edit : Database.Edit) :
    Engine σ Definition := do
  let read ← latest workflow organization
  let id ← freshId env (.definition workflow (read.version + 1))
  commit fun time => Database.writeDraft time id read edit

/-- Archives the published version of a workflow. -/
def archive (workflow organization : String) : Engine σ Definition :=
  commit fun time => Database.archive time workflow organization

/-- Adds a definition that is given column by column. -/
def insertDefinition (env : Environment σ) (columns : Members) : Engine σ Definition := do
  let time ← now
  let d ← ofExcept (Database.definitionOf time columns)
  let fresh ← freshId env (.definition d.workflow d.version)
  let id := if (Members.getD "id" columns).isNull then fresh else d.id
  commit fun _ => Database.insertDefinition { d with id := id }

/-- Changes definitions altogether or not at all: after a failure they are as they were before. -/
def atomically {α : Type} (x : Engine σ α) : Engine σ α := do
  let before := (← get).db.definitions
  match ← attempt x with
  | .ok a => return a
  | .error f =>
    modify fun w => { w with db := { w.db with definitions := before } }
    throw f

/-! ## Validating -/

/-- Whether what is referred to exists. -/
def referenceExists (env : Environment σ) (organization : String) (r : Graph.Reference) :
    Engine σ Bool :=
  match r.kind with
  | .stage => demand env (.stageExists organization r.id)
  | .tag => demand env (.tagExists organization r.id)
  | .template => demand env (.templateExists organization r.id)
  | .endpoint => demand env (.endpointExists organization r.id)

/-- The defects of references. -/
def referenceDefects (env : Environment σ) (organization : String) :
    List Graph.Reference → Engine σ (List Defect)
  | [] => return []
  | r :: rest => do
    let found ← attempt (referenceExists env organization r)
    let others ← referenceDefects env organization rest
    match found with
    | .ok true => return others
    | .ok false => return .unknownReference r.node r.kind r.id :: others
    | .error f => return .unverifiedReference r.node r.kind r.id f.text :: others

/-- Validates a graph for an organization. -/
def validate (env : Environment σ) (raw : Value) (organization : String) : Engine σ Validation := do
  match checkStructure raw with
  | ⟨[], some g⟩ => return ⟨← referenceDefects env organization g.references, some g⟩
  | v => return v

/-! ## Publishing -/

/-- The event type that the trigger of a graph names. -/
def triggerName (g : Graph) : Option String :=
  g.trigger?.bind fun n =>
    match n.config with
    | .trigger name _ _ => some name
    | _ => none

/-- Publishes the newest version of a workflow, which has to be a draft with a valid graph. -/
def publish (env : Environment σ) (workflow organization : String) : Engine σ Definition := do
  let draft ← latest workflow organization
  if draft.status ≠ .known .draft then
    throw (.conflict ("Workflow " ++ workflow ++ " has no draft to publish"))
  let v ← validate env draft.graph organization
  if v.isOk then
    commit fun time => Database.markPublished time draft (v.graph?.bind triggerName)
  else
    throw (.validation ("Workflow " ++ workflow ++ " v" ++ toString draft.version ++ " is not valid")
      (v.defects.map Defect.toValue))

end Engine

end CrmAutomation
