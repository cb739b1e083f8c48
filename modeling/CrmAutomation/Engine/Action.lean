import CrmAutomation.ActionKind
import CrmAutomation.Engine.Monad
import CrmAutomation.Event.Basic
import CrmAutomation.Store.Trail

/-!
# Actions

`dispatch` makes one attempt at an action node. Moving a contact and changing its tags do nothing
when the contact is already as wanted, and report what they changed as a follow-up event. A mail
or a webhook that was sent before is not sent again.
-/

namespace CrmAutomation

/-- What an attempt at an action came to. -/
structure ActionResult where
  ok : Bool
  retryable : Bool := false
  error : Option String := none
  output : Members := []
  skipped : Bool := false
  emitted : List Event := []

namespace ActionResult

def success (output : Members) : ActionResult := { ok := true, output := output }

def failed (error : String) (retryable : Bool) : ActionResult :=
  { ok := false, error := some error, retryable := retryable }

/-- The node had done its work before. -/
def alreadyDone : ActionResult :=
  { ok := true, skipped := true, output := [("reason", .str "already_succeeded")] }

/-- How the attempt is recorded. -/
def outcome (r : ActionResult) : NodeOutcome :=
  if r.skipped then .skipped else if r.ok then .success else .failed

end ActionResult

/-- What an attempt at an action has to do with. -/
structure ActionContext where
  run : Run
  node : Node
  contact : Contact
  attempt : Int

namespace ActionContext

/-- The same for every attempt at a node of a run. -/
def idempotencyKey (c : ActionContext) : String := c.run.id ++ ":" ++ c.node.id

/-- What a webhook tells its receiver. -/
def webhookPayload (c : ActionContext) : Members :=
  [("event", c.run.event.orElse (.obj [])), ("subject", c.contact.toValue),
    ("run", .obj [("id", .str c.run.id), ("node_id", .str c.node.id), ("attempt", .int c.attempt)])]

end ActionContext

namespace Engine

variable {σ : Type}

/-- The answer to a call, what it brings being turned into a result. -/
def onValue {α : Type} (answer : Answer α) (f : α → Engine σ ActionResult) :
    Engine σ (Answer ActionResult) :=
  match answer with
  | .value a => return .value (← f a)
  | .failure e => return .failure e
  | .silence => return .silence

/-- The event that a change of the contact causes, unless follow-ups are switched off. -/
def followUp (env : Environment σ) (c : ActionContext) (type : EventType) (payload : Members) :
    Engine σ (List Event) := do
  if env.rules.emitFollowUps then
    let id ← freshId env .event
    let time ← now
    return [{
      type := type
      organization := c.run.organization
      contact := c.run.contact
      payload := Members.merge payload [("source", .str "automation"), ("runId", .str c.run.id)]
      chainDepth := c.run.chainDepth + 1
      id := id
      occurredAt := time }]
  else return []

/-- Moves the contact to a stage. -/
def moveStage (env : Environment σ) (c : ActionContext) (stage : String) :
    Engine σ (Answer ActionResult) := do
  if c.contact.stage.same (.str stage) then
    return .value (.success [("stage_id", .str stage), ("changed", .bool false)])
  onValue (← ask env (.setStage c.run.organization c.run.contact stage)) fun _ => do
    let emitted ← followUp env c .stageChanged
      [("fromStageId", c.contact.stage), ("toStageId", .str stage)]
    return { ok := true, emitted := emitted,
             output := [("stage_id", .str stage), ("from_stage_id", c.contact.stage),
               ("changed", .bool true)] }

/-- What a change of a tag came to. -/
def tagResult (tag : String) (changed : Bool) (emitted : List Event) : ActionResult :=
  { ok := true, emitted := emitted, output := [("tag_id", .str tag), ("changed", .bool changed)] }

/-- Gives the contact a tag. -/
def addTag (env : Environment σ) (c : ActionContext) (tag : String) :
    Engine σ (Answer ActionResult) := do
  if c.contact.tags.contains tag then return .value (tagResult tag false [])
  onValue (← ask env (.addTag c.run.organization c.run.contact tag)) fun _ => do
    return tagResult tag true (← followUp env c .tagAdded [("tagId", .str tag)])

/-- Takes a tag from the contact. -/
def removeTag (env : Environment σ) (c : ActionContext) (tag : String) :
    Engine σ (Answer ActionResult) := do
  if !c.contact.tags.contains tag then return .value (tagResult tag false [])
  onValue (← ask env (.removeTag c.run.organization c.run.contact tag)) fun _ => do
    return tagResult tag true (← followUp env c .tagRemoved [("tagId", .str tag)])

/-- The address of a contact. -/
def address? (contact : Contact) : Option String :=
  match contact.lookup? "email" with
  | some (.str s) => if Text.trim s = "" then none else some (Text.trim s)
  | _ => none

/-- Sends the contact a mail. -/
def sendEmail (env : Environment σ) (c : ActionContext) (template : String)
    (fromName : Option String) : Engine σ (Answer ActionResult) := do
  match address? c.contact with
  | none =>
    return .value (.failed ("Contact " ++ c.run.contact ++ " has no email address") false)
  | some address =>
    let mail : Mail := {
      contact := c.run.contact
      template := template
      address := address
      mergeFields := c.contact.mergeFields.toMembers
      fromName := fromName
      key := c.idempotencyKey }
    match ← ask env (.sendTemplate c.run.organization mail) with
    | .value id =>
      let id : Value := id
      return .value (.success [("template_id", .str template), ("message_id", id)])
    | .failure f => return .failure f
    | .silence => return .silence

/-- Calls a webhook. -/
def callWebhook (env : Environment σ) (c : ActionContext) (endpoint : String) :
    Engine σ (Answer ActionResult) := do
  let delivery : Delivery := {
    contact := c.run.contact
    endpoint := endpoint
    payload := c.webhookPayload
    id := c.idempotencyKey
    timeout := env.rules.webhookTimeout }
  match ← ask env (.deliver c.run.organization delivery) with
  | .value status =>
    let status : Int := status
    return .value (.success [("endpoint_id", .str endpoint), ("status_code", .int status)])
  | .failure f => return .failure f
  | .silence => return .silence

/-- Makes the calls of an action. -/
def execute (env : Environment σ) (c : ActionContext) : Engine σ (Answer ActionResult) :=
  match c.node.config with
  | .moveStage stage => moveStage env c stage
  | .addTag tag => addTag env c tag
  | .removeTag tag => removeTag env c tag
  | .sendEmail template fromName => sendEmail env c template fromName
  | .webhook endpoint => callWebhook env c endpoint
  | _ => return .value (.success [])

/-- How long an attempt at an action may take. -/
def timeoutOf (rules : Rules) : ActionKind → Double
  | .webhook => rules.webhookTimeout
  | _ => rules.actionTimeout

/-- The calls of an action in the time that they may take; without any time they are not made. -/
def executeInTime (env : Environment σ) (c : ActionContext) (timeout : Double) :
    Engine σ (Answer ActionResult) :=
  if timeout.lt .zero || timeout.eq .zero then return .silence else execute env c

/-- Makes one attempt at an action node. Failures of the services are results. -/
def dispatch (env : Environment σ) (c : ActionContext) : Engine σ ActionResult := do
  match ActionRegistry.builtin.get? c.node.type.text with
  | none =>
    return .failed ("No action registered for node type '" ++ c.node.type.text ++ "'") false
  | some kind =>
    if !kind.isIdempotent then
      if ← look env .hasSuccess fun db => db.hasSuccess c.run.id c.node.id then
        return .alreadyDone
    let timeout := timeoutOf env.rules kind
    match ← executeInTime env c timeout with
    | .value r => return r
    | .failure f => return .failed f.textOrKind f.isTransient
    | .silence => return .failed (kind.text ++ " timed out after " ++ timeout.text ++ "s") true

end Engine

end CrmAutomation
