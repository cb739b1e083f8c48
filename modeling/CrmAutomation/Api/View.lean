import CrmAutomation.Engine.Matching
import CrmAutomation.Json.Sendable
import CrmAutomation.Misfit

/-!
# What the API shows

Rows of the database as JSON objects. A column of JSON can hold what the API does not show: it
shows objects, and none that are nested too deep.
-/

namespace CrmAutomation.Api

/-- A time, or null. -/
def timeView (t : Option Instant) : Value := .ofOption (t.map Instant.isoText)

/-- How deep the members of an object may be nested. -/
def maxDepth : Nat := 255

/-- The failure to show what is nested too deep. -/
def tooDeep : Failure :=
  .system .valueError "Error serializing to JSON: ValueError: Maximum serialization depth exceeded"

/-- An object of any shape in the field of a view. -/
def objectView (view field : String) : Value → Except Failure Value
  | .obj ms =>
    if maxDepth < Value.membersDepth ms then .error tooDeep
    else .ok (.obj (Value.sendableMembers ms))
  | v => .error (Misfit.failure view [.notObject field v])

/-- An object of any shape, or null. -/
def objectView? (view field : String) : Value → Except Failure Value
  | .null => .ok .null
  | v => objectView view field v

/-- A version of a workflow. -/
def definitionView (d : Definition) : Except Failure Value := do
  let graph ← objectView "WorkflowResponse" "graph" (d.graph.orElse (.obj []))
  return .obj [
    ("id", .str d.id),
    ("workflow_id", .str d.workflow),
    ("name", .str d.name),
    ("description", .str d.description),
    ("version", .int d.version),
    ("status", .str d.status.text),
    ("trigger_type", .ofOption d.triggerType),
    ("graph", graph),
    ("published_at", timeView d.publishedAt),
    ("created_by", .str (d.createdBy.getD "")),
    ("created_at", timeView (some d.createdAt)),
    ("updated_at", timeView (some d.updatedAt))]

/-- The members that show a run. -/
def runMembers (r : Run) : Members :=
  [("id", .str r.id),
    ("workflow_id", .str r.workflow),
    ("workflow_version", .int r.version),
    ("definition_id", .str r.definition),
    ("subject_id", .str r.contact),
    ("state", .str r.state.text),
    ("current_node_id", .str r.node),
    ("resume_at", timeView r.resumeAt),
    ("started_at", timeView (some r.startedAt)),
    ("completed_at", timeView r.completedAt),
    ("error_message", .ofOption r.error),
    ("chain_depth", .int r.chainDepth)]

def runView (r : Run) : Value := .obj (runMembers r)

/-- The members that show an attempt. -/
def recordMembers (view : String) (r : NodeRecord) : Except Failure Members := do
  let output ← objectView? view "output" (r.output.getD .null)
  return [("node_id", .str r.node),
    ("node_type", .str r.nodeType),
    ("attempt", .int r.attempt),
    ("outcome", .str r.outcome.text),
    ("error", .ofOption r.error),
    ("output", output),
    ("executed_at", timeView (some r.executedAt))]

/-- A run with its history. -/
def runDetail (r : Run) (history : List NodeRecord) : Except Failure Value := do
  let event ← objectView? "RunDetailResponse" "trigger_event" r.event
  let entries ← history.mapM (recordMembers "NodeExecutionResponse")
  return .obj (runMembers r ++ [("trigger_event", event), ("history", .list (entries.map .obj))])

/-- An attempt with the run that it belongs to. -/
def historyEntry (r : NodeRecord) : Except Failure Value :=
  return .obj ((← recordMembers "SubjectNodeExecutionResponse" r) ++ [("run_id", .str r.run)])

/-- How an event was routed. -/
def matchView (r : MatchResult) : Value :=
  .obj [("event_id", .str r.event), ("matched", .int r.matched),
    ("started_run_ids", .list (r.runs.map fun run => .str run.id)),
    ("deduplicated", .int r.deduplicated), ("ignored_reason", .ofOption r.ignored)]

/-- One page of a list. -/
def pageView (name : String) (items : List Value) (total : Nat) (page perPage : Int) : Value :=
  .obj [(name, .list items), ("total", .int total), ("page", .int page),
    ("per_page", .int perPage)]

end CrmAutomation.Api
