import CrmAutomation.Access.Token
import CrmAutomation.Api.View
import CrmAutomation.Engine.Action

/-!
# Reports

What a rehearsal tells about the things it deals with: values of the engine as JSON, and the rows
of the database that a step has added or changed (`changedRows`).
-/

namespace CrmAutomation.Rehearsal

/-! ## Graphs -/

/-- What a node is set up to do. -/
def configReport : NodeConfig → Value
  | .trigger event stage tag =>
    .obj [("trigger_type", .str event), ("to_stage_id", .ofOption stage), ("tag_id", .ofOption tag)]
  | .sendEmail template name => .obj [("template_id", .str template), ("from_name", .ofOption name)]
  | .moveStage stage => .obj [("stage_id", .str stage)]
  | .addTag tag => .obj [("tag_id", .str tag)]
  | .removeTag tag => .obj [("tag_id", .str tag)]
  | .webhook endpoint => .obj [("endpoint_id", .str endpoint)]
  | .delay minutes => .obj [("duration_minutes", .int minutes)]
  | .condition c =>
    .obj [("field", .str c.field), ("operator", .str c.operator), ("value", c.value)]

def nodeReport (n : Node) : Value :=
  .obj [("id", .str n.id), ("type", .str n.type.text), ("label", .str n.label),
    ("is_action", .bool n.type.isAction), ("config", configReport n.config)]

def edgeReport (e : Edge) : Value :=
  .list [.int e.source, .int e.target, .str e.handle.text]

/-! ## Results -/

def definitionReport (d : Definition) : Value :=
  .obj [("id", .str d.id), ("workflow_id", .str d.workflow), ("org", .str d.organization),
    ("name", .str d.name), ("description", .str d.description), ("status", .str d.status.text),
    ("version", .int d.version), ("trigger_type", .ofOption d.triggerType),
    ("published_at", Api.timeView d.publishedAt), ("created_by", .ofOption d.createdBy),
    ("graph", d.graph)]

/-- How the execution of a run ended. -/
def outcomeReport (o : Outcome) : Value :=
  .obj [("run", .str o.run), ("state", .ofOption (o.state.map RunState.text)),
    ("steps", .int o.steps), ("error", .ofOption o.error),
    ("emitted", .list (o.emitted.map Event.toValue))]

/-- What an event led to. -/
def matchReport (r : MatchResult) : Value :=
  .obj [("event_id", .str r.event), ("matched", .int r.matched),
    ("deduplicated", .int r.deduplicated), ("runs", .list (r.runs.map fun run => .str run.id)),
    ("outcomes", .list (r.outcomes.map outcomeReport)), ("ignored_reason", .ofOption r.ignored)]

/-- What an attempt at an action came to. -/
def actionReport (r : ActionResult) : Value :=
  .obj [("ok", .bool r.ok), ("retryable", .bool r.retryable), ("error", .ofOption r.error),
    ("output", .obj r.output), ("skipped", .bool r.skipped),
    ("emitted", .list (r.emitted.map Event.toValue))]

/-- An entry of the audit trail. -/
def entryReport (r : NodeRecord) : Value :=
  .obj [("run", .str r.run), ("node", .str r.node), ("type", .str r.nodeType),
    ("attempt", .int r.attempt), ("outcome", .str r.outcome.text), ("error", .ofOption r.error),
    ("output", r.output.getD .null), ("at", Api.timeView (some r.executedAt))]

/-- An attempt as it is listed with its run. -/
def attemptReport (r : NodeRecord) : Value :=
  .list [.str r.node, .int r.attempt, .str r.outcome.text]

def claimReport (c : Claim) : Value := .list [.str c.run, .int c.lock]

/-! ## Rows -/

/-- The columns of a definition whose changes are told. -/
def definitionRow (d : Definition) : Members :=
  [("id", .str d.id), ("status", .str d.status.text), ("name", .str d.name),
    ("trigger_type", .ofOption d.triggerType)]

/-- The columns of a run whose changes are told. -/
def runRow (r : Run) : Members :=
  [("id", .str r.id), ("state", .str r.state.text), ("node", .str r.node), ("lock", .int r.lock),
    ("active_key", .ofOption r.activeKey)]
  ++ [("resume_at", Api.timeView r.resumeAt), ("completed_at", Api.timeView r.completedAt),
    ("error", .ofOption r.error)].filter fun p => !p.2.isNull

/-- The columns of a run that are told once. -/
def newRunRow (r : Run) : Members :=
  runRow r ++ [("definition", .str r.definition), ("org", .str r.organization),
    ("subject", .str r.contact), ("chain_depth", .int r.chainDepth),
    ("started_at", Api.timeView (some r.startedAt)), ("trigger_event", r.event)]

/-- A record of the audit trail. -/
def recordRow (r : NodeRecord) : Value :=
  .list [.str r.run, .str r.node, .str r.nodeType, .int r.attempt, .str r.outcome.text,
    .ofOption r.error, r.output.getD .null]

/-- The rows that are new, and those that look different from before. -/
def changedRows {α : Type} (id : α → String) (row newRow : α → Members) (before after : List α) :
    List Value :=
  after.filterMap fun a =>
    match before.find? fun b => id b == id a with
    | none => some (.obj (newRow a))
    | some b => if (Value.obj (row a)).same (.obj (row b)) then none else some (.obj (row a))

/-- A part of a report, left out when it is empty. -/
def part (name : String) (items : List Value) : Members :=
  if items.isEmpty then [] else [(name, .list items)]

/-- What a step has changed in the database. -/
def changes (before after : Database) : Members :=
  part "definitions"
      (changedRows (·.id) definitionRow definitionRow before.definitions after.definitions)
    ++ part "runs" (changedRows (·.id) runRow newRunRow before.runs after.runs)
    ++ part "records" ((after.records.drop before.records.length).map recordRow)

end CrmAutomation.Rehearsal
