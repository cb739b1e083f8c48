import CrmAutomation.Instant
import CrmAutomation.Number.IntegerText
import CrmAutomation.Text.Blank
import CrmAutomation.Vocabulary

/-!
# CRM events

An event may start runs of the workflows that listen to its type. `Event.toValue` is its wire
form and `Event.ofMembers` reads it, keys in camel case or in snake case. The chain depth is
zero for an event of the CRM and grows by one with every follow-up that an action causes.
-/

namespace CrmAutomation

/-- Something that happened to a contact. -/
structure Event where
  type : EventType
  organization : String
  contact : String
  payload : Members
  chainDepth : Int
  id : String
  occurredAt : Instant
  deriving Inhabited

namespace Event

/-- An event as it is stored and sent. -/
def toValue (e : Event) : Value :=
  .obj [("type", .str e.type.text), ("organizationId", .str e.organization),
    ("subjectId", .str e.contact), ("payload", .obj e.payload), ("chainDepth", .int e.chainDepth),
    ("eventId", .str e.id), ("occurredAt", .str e.occurredAt.isoText)]

/-- An integer given as a number or as text. -/
def wholeNumber : Value → Except Failure Int
  | .int i => .ok i
  | .bool b => .ok (if b then 1 else 0)
  | .float .nan => .error (.system .valueError "cannot convert float NaN to integer")
  | .float (.infinite _) =>
    .error (.system .overflow "cannot convert float infinity to integer")
  | .float d => .ok (d.truncate?.getD 0)
  | .str s =>
    match Number.readInteger? s with
    | some i => .ok i
    | none => .error (.system .valueError
        ("invalid literal for int() with base 10: " ++ Text.quoted s))
  | v => .error (.system .typeError
      ("int() argument must be a string, a bytes-like object or a real number, not '"
        ++ v.kindName ++ "'"))

/-- The event type that a value names. -/
def eventType? : Value → Option EventType
  | .str s => EventType.ofText? s
  | _ => none

/-- The first of two members that is truthy, else the second. -/
def either (ms : Members) (a b : String) : Value :=
  (Members.getD a ms).orElse (Members.getD b ms)

/-- The event that an object describes. An event without an id takes `freshId`; it occurs when it
is read. -/
def ofMembers (freshId : String) (now : Instant) (ms : Members) : Except Failure Event :=
  let rawType := Members.getD "type" ms
  match eventType? rawType with
  | none => .error (.validation ("Unknown event type: " ++ rawType.inner) [])
  | some type =>
    let organization := either ms "organizationId" "organization_id"
    let contact := either ms "subjectId" "subject_id"
    if !organization.isTruthy || !contact.isTruthy then
      .error (.validation "Event requires organizationId and subjectId" [])
    else
      match (Members.getD "payload" ms).orElse (.obj []) with
      | .obj payload => do
        let given := either ms "eventId" "event_id"
        let chainDepth ← wholeNumber ((either ms "chainDepth" "chain_depth").orElse (.int 0))
        return {
          type := type
          organization := organization.display
          contact := contact.display
          payload := payload
          chainDepth := chainDepth
          id := if given.isTruthy then given.display else freshId
          occurredAt := now }
      | _ => .error (.validation "Event payload must be an object" [])

/-! ## Trigger filters -/

/-- The payload keys that a filter key is compared with. -/
def payloadKeys : String → List String
  | "to_stage_id" => ["toStageId", "to_stage_id"]
  | "tag_id" => ["tagId", "tag_id"]
  | key => [key]

/-- The payload's value for a filter key: that of the first key that is there. -/
def payloadValue (e : Event) (key : String) : Value :=
  ((payloadKeys key).findSome? fun k => Members.get? k e.payload).getD .null

/-- Whether the payload has the expected text for a filter key. -/
def passes (e : Event) (key expected : String) : Bool :=
  let actual := e.payloadValue key
  !actual.isNull && actual.display == expected

/-- Whether an event passes every filter. -/
def passesAll (e : Event) (filters : List (String × String)) : Bool :=
  filters.all fun f => e.passes f.1 f.2

end Event

end CrmAutomation
