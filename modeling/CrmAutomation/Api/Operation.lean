import CrmAutomation.Access.Token
import CrmAutomation.Api.Endpoint
import CrmAutomation.Api.Response
import CrmAutomation.Api.View
import CrmAutomation.Engine.Workflows
import CrmAutomation.Json.Document
import CrmAutomation.Paging

/-!
# Operations of the API

What each endpoint does. All but the health checks need an operator, whose organization bounds
what is read and changed. A body that is no JSON is refused first, then a caller who is not
known, then a request whose fields are wrong.
-/

namespace CrmAutomation.Api

/-- What serves requests. -/
structure Server (σ : Type) where
  env : Environment σ
  settings : Settings
  databaseReachable : Bool

variable {σ : Type}

/-! ## Callers -/

/-- The token in a header of the form "Bearer token". -/
def bearerToken? (header : Option String) : Option String := do
  let cs := (← header).toList
  let scheme := cs.takeWhile (· != ' ')
  let token := Text.trim (String.ofList (cs.drop (scheme.length + 1)))
  if Text.lower (String.ofList scheme) = "bearer" ∧ token ≠ "" then some token else none

/-- The operator who makes a request, or the refusal. -/
def caller (s : Server σ) (r : Http.Request) : Engine σ (Except Response Identity) := do
  match bearerToken? (r.header? "authorization") with
  | none => return .error (.unauthorized "Missing authorization header")
  | some token =>
    match Token.verify s.settings.secretKey (← Engine.now) token with
    | .error (.rejected reason) => return .error (.unauthorized reason.detail)
    | .error (.failed f) => throw f
    | .ok identity =>
      if identity.kind = Token.accessKind then return .ok identity
      else return .error (.unauthorized "Invalid token type")

/-- Does what an operator asks for if all is right with what is asked. -/
def guarded {α : Type} (s : Server σ) (r : Http.Request) (asked : Checked α)
    (act : Identity → α → Engine σ Response) : Engine σ Response := do
  match ← caller s r with
  | .error refusal => return refusal
  | .ok user =>
    match asked with
    | .error cs => Engine.ofExcept (Response.complaints cs)
    | .ok a => act user a

/-! ## What is asked -/

/-- Whether a body of this type is JSON; one without a type is taken for it. -/
def isJsonType : Option String → Bool
  | none => true
  | some t =>
    let kind := Text.lower (Text.trim (String.ofList (t.toList.takeWhile (· != ';'))))
    kind.toList.count '/' == 1
      && (kind == "application/json" || kind.startsWith "application/" && kind.endsWith "+json")

/-- The refusal of a body that is no JSON. -/
def malformed (fault : Json.DocumentFault) : Except Failure Response :=
  match fault.position? with
  | some n =>
    Response.complaints [⟨[.str "body", .int n], .notJson fault.reason, .obj []⟩]
  | none => .ok (.detail 400 "There was an error parsing the body")

/-- The value in the body of a request, if there is one. -/
def bodyValue (r : Http.Request) : Except Json.DocumentFault (Option Value) :=
  match r.body.getD "" with
  | "" => .ok none
  | text =>
    if isJsonType (r.header? "content-type") then
      (Json.readBytes (Bytes.ofText text)).map some
    else .ok (some (.str text))

/-- The fields of a body, which has to be an object. -/
def bodyFields {α : Type} (body : Option Value) (fields : Members → Checked α) : Checked α :=
  match body with
  | none => .error [⟨[.str "body"], .missing, .null⟩]
  | some (.obj ms) => fields ms
  | some v => .error [⟨[.str "body"], .notRecord, v⟩]

/-- Does what an operator asks for in the body of a request. -/
def guardedBody {α : Type} (s : Server σ) (r : Http.Request) (fields : Members → Checked α)
    (act : Identity → α → Engine σ Response) : Engine σ Response :=
  match bodyValue r with
  | .error fault => Engine.ofExcept (malformed fault)
  | .ok body => guarded s r (bodyFields body fields) act

/-- The greatest length of the name of a workflow. -/
def maxNameLength : Nat := 255

/-- The name, description and graph of a new workflow. -/
def newWorkflow (ms : Members) : Checked (String × Option String × Option Members) :=
  (textField ms "name" 1 maxNameLength).pair
    ((textField? ms "description" 0 none).pair (objectField? ms "graph"))

/-- An edit of a workflow, with its graph. -/
def graphEdit (ms : Members) : Checked (Members × Option String × Option String) :=
  (objectField ms "graph").pair
    ((textField? ms "name" 1 maxNameLength).pair (textField? ms "description" 0 none))

/-- The contact and payload of a run that is started by hand. -/
def manualStart (ms : Members) : Checked (String × Members) :=
  (textField ms "subject_id" 1 none).pair (objectFieldOrEmpty ms "payload")

/-- The type, contact, payload and id of an event. -/
def eventFields (ms : Members) : Checked (EventType × String × Members × Option String) :=
  (choiceField ms "type" EventType.text EventType.all).pair
    ((textField ms "subject_id" 1 none).pair
      ((objectFieldOrEmpty ms "payload").pair (textField? ms "event_id" 0 none)))

/-- The page of a list and its length. -/
def pageParameters (q : Http.Query) : Checked (Int × Int) :=
  (wholeParameter q "page" 1 1 none).pair (wholeParameter q "per_page" 20 1 (some 100))

/-- The number of rows before a page, if a column can hold it. -/
def offsetOf (page perPage : Int) : Engine σ Int :=
  Engine.ofExcept (Database.bound (pageOffset page perPage))

/-! ## Workflows -/

/-- The response that shows what a change of a workflow came to. What cannot be shown has not
been changed. -/
def showChange (status : Int) (change : Engine σ Definition) : Engine σ Response :=
  Engine.atomically do
    return .json status (← Engine.ofExcept (definitionView (← change)))

def listWorkflows (s : Server σ) (r : Http.Request) (q : Http.Query) : Engine σ Response :=
  guarded s r (pageParameters q) fun user (page, perPage) => do
    let offset ← offsetOf page perPage
    let (rows, total) := (← get).db.listLatest user.organization offset perPage
    let views ← Engine.ofExcept (rows.mapM definitionView)
    return .json 200 (pageView "workflows" views total page perPage)

def createWorkflow (s : Server σ) (r : Http.Request) : Engine σ Response :=
  guardedBody s r newWorkflow fun user (name, description, graph) => do
    showChange 201 (Engine.createWorkflow s.env user.organization name (description.getD "")
      (.obj (graph.getD [])) (some user.user))

def showWorkflow (s : Server σ) (r : Http.Request) (workflow : String) : Engine σ Response :=
  guarded s r (.ok ()) fun user _ => do
    match (← get).db.versions workflow user.organization with
    | [] => throw (.notFound ("Workflow " ++ workflow ++ " not found"))
    | rows =>
      let views ← Engine.ofExcept (rows.mapM definitionView)
      return .json 200 (.obj [("workflow_id", .str workflow), ("versions", .list views)])

def saveGraph (s : Server σ) (r : Http.Request) (workflow : String) : Engine σ Response :=
  guardedBody s r graphEdit fun user (graph, name, description) =>
    showChange 200 (Engine.saveDraft s.env workflow user.organization {
      graph := some (.obj graph)
      name := name
      description := description
      createdBy := some user.user })

def validateWorkflow (s : Server σ) (r : Http.Request) (workflow : String) : Engine σ Response :=
  guarded s r (.ok ()) fun user _ => do
    let d ← Engine.latest workflow user.organization
    let v ← Engine.validate s.env d.graph user.organization
    return .json 200 v.toValue

def publishWorkflow (s : Server σ) (r : Http.Request) (workflow : String) : Engine σ Response :=
  guarded s r (.ok ()) fun user _ =>
    showChange 200 (Engine.publish s.env workflow user.organization)

def archiveWorkflow (s : Server σ) (r : Http.Request) (workflow : String) : Engine σ Response :=
  guarded s r (.ok ()) fun user _ =>
    showChange 200 (Engine.archive workflow user.organization)

/-- The published version of a workflow. -/
def publishedVersion (workflow organization : String) : Engine σ Definition := do
  match (← get).db.published? workflow organization with
  | some d => return d
  | none => throw (.notFound ("Workflow " ++ workflow ++ " has no published version"))

def startWorkflow (s : Server σ) (r : Http.Request) (workflow : String) : Engine σ Response :=
  guardedBody s r manualStart fun user (contact, payload) => do
    let d ← publishedVersion workflow user.organization
    let started ← Engine.startManually s.env d contact
      (Members.merge payload [("triggeredBy", .str user.user)])
    match started with
    | none => throw (.conflict ("Contact " ++ contact
        ++ " already has an active run of workflow " ++ workflow))
    | some o =>
      let run ← Engine.look s.env .getRun fun db => db.run? o.run
      return .json 201 (.obj [("started", .bool true), ("run", (run.map runView).getD .null)])

/-! ## Runs and events -/

def listRuns (s : Server σ) (r : Http.Request) (q : Http.Query) : Engine σ Response :=
  let asked := (pageParameters q).pair (choiceParameter? q "state" RunState.text RunState.all)
  guarded s r asked fun user ((page, perPage), state) => do
    let offset ← offsetOf page perPage
    let filter : Database.RunFilter := {
      contacts := (Http.Query.get? "subject_id" q).map fun s => [s]
      workflows := (Http.Query.get? "workflow_id" q).map fun s => [s]
      states := state.map fun s => [s.text] }
    let (rows, total) := (← get).db.listRuns user.organization filter offset perPage
    return .json 200 (pageView "runs" (rows.map runView) total page perPage)

def contactHistory (s : Server σ) (r : Http.Request) (q : Http.Query) : Engine σ Response :=
  let asked := (textParameter q "subject_id").pair (wholeParameter q "limit" 100 1 (some 500))
  guarded s r asked fun user (contact, limit) => do
    let rows := (← get).db.contactHistory user.organization contact limit
    let entries ← Engine.ofExcept (rows.mapM historyEntry)
    return .json 200 (.obj [("subject_id", .str contact), ("entries", .list entries)])

def showRun (s : Server σ) (r : Http.Request) (id : String) : Engine σ Response :=
  guarded s r (.ok ()) fun user _ => do
    let db := (← get).db
    let run ← Engine.ofExcept (db.runOf user.organization id)
    return .json 200 (← Engine.ofExcept (runDetail run (db.history run.id)))

def cancelRun (s : Server σ) (r : Http.Request) (id : String) : Engine σ Response :=
  guarded s r (.ok ()) fun user _ => do
    let run ← Engine.ofExcept ((← get).db.runOf user.organization id)
    if ← Engine.cancel s.env run.id then
      return .json 200 (runView (((← get).db.run? run.id).getD run))
    else throw (.conflict ("Run " ++ id ++ " is already " ++ run.state.text))

def takeEvent (s : Server σ) (r : Http.Request) : Engine σ Response :=
  guardedBody s r eventFields fun user (type, contact, payload, given) => do
    let fresh ← Engine.freshId s.env .event
    let time ← Engine.now
    let event : Event := {
      type := type
      organization := user.organization
      contact := contact
      payload := payload
      chainDepth := 0
      id := if given.getD "" = "" then fresh else given.getD ""
      occurredAt := time }
    return .json 202 (matchView (← Engine.handleEvent s.env event))

/-! ## Health -/

def health (s : Server σ) : Response :=
  .json 200 (.obj [("app", .str s.settings.appName), ("version", .str s.settings.appVersion),
    ("status", .str "ok")])

def readiness (s : Server σ) : Response :=
  let view (status database : String) : Value :=
    .obj [("status", .str status), ("checks", .obj [("database", .str database)])]
  if s.databaseReachable then .json 200 (view "ok" "ok")
  else .json 503 (view "degraded" "unavailable")

/-- Does what an endpoint is for. -/
def operate (s : Server σ) (r : Http.Request) (q : Http.Query) : Endpoint → Engine σ Response
  | .health => return health s
  | .readiness => return readiness s
  | .listWorkflows => listWorkflows s r q
  | .createWorkflow => createWorkflow s r
  | .showWorkflow w => showWorkflow s r w
  | .saveGraph w => saveGraph s r w
  | .validateWorkflow w => validateWorkflow s r w
  | .publishWorkflow w => publishWorkflow s r w
  | .archiveWorkflow w => archiveWorkflow s r w
  | .startWorkflow w => startWorkflow s r w
  | .listRuns => listRuns s r q
  | .contactHistory => contactHistory s r q
  | .showRun id => showRun s r id
  | .cancelRun id => cancelRun s r id
  | .takeEvent => takeEvent s r

end CrmAutomation.Api
