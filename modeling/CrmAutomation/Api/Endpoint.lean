import CrmAutomation.Http.Url

/-!
# Endpoints

The API answers requests at certain methods and paths. `route` finds the endpoint of a request; a
path that differs from a known one in its last slash is found elsewhere.
-/

namespace CrmAutomation.Api

/-- What the API can do. -/
inductive Endpoint where
  | health
  | readiness
  | listWorkflows
  | createWorkflow
  | showWorkflow (workflow : String)
  | saveGraph (workflow : String)
  | validateWorkflow (workflow : String)
  | publishWorkflow (workflow : String)
  | archiveWorkflow (workflow : String)
  | startWorkflow (workflow : String)
  | listRuns
  | contactHistory
  | showRun (run : String)
  | cancelRun (run : String)
  | takeEvent
  deriving DecidableEq, Repr

/-- A method and a path with an endpoint. A star in the path stands for one segment, which the
endpoint is given. -/
structure Route where
  method : String
  path : String
  endpoint : String → Endpoint

/-- The endpoints of the API, those under `root` with a version. -/
def routes (root : String) : List Route :=
  let workflow := root ++ "/workflows/*"
  let run := root ++ "/runs/*"
  [⟨"GET", "/api/health", fun _ => .health⟩,
    ⟨"GET", "/api/health/ready", fun _ => .readiness⟩,
    ⟨"GET", root ++ "/workflows/", fun _ => .listWorkflows⟩,
    ⟨"POST", root ++ "/workflows/", fun _ => .createWorkflow⟩,
    ⟨"GET", workflow, .showWorkflow⟩,
    ⟨"PUT", workflow ++ "/graph", .saveGraph⟩,
    ⟨"POST", workflow ++ "/validate", .validateWorkflow⟩,
    ⟨"POST", workflow ++ "/publish", .publishWorkflow⟩,
    ⟨"POST", workflow ++ "/archive", .archiveWorkflow⟩,
    ⟨"POST", workflow ++ "/trigger", .startWorkflow⟩,
    ⟨"GET", root ++ "/runs/", fun _ => .listRuns⟩,
    ⟨"GET", root ++ "/runs/history", fun _ => .contactHistory⟩,
    ⟨"GET", run, .showRun⟩,
    ⟨"POST", run ++ "/cancel", .cancelRun⟩,
    ⟨"POST", root ++ "/events/", fun _ => .takeEvent⟩]

/-- Whether the last segment of a path is a word; a line may end after it. -/
def endsWith (word segment : String) : Bool := segment == word || segment == word ++ "\n"

/-- The segment at the star of a pattern that fits, empty when there is no star. -/
def fit? : List String → List String → Option String
  | [], [] => some ""
  | [p], [s] =>
    if p = "*" then if s = "" then none else some s
    else if endsWith p s then some ""
    else none
  | p :: ps, s :: ss =>
    if p = "*" then if s = "" then none else (fit? ps ss).map fun _ => s
    else if p = s then fit? ps ss
    else none
  | _, _ => none

/-- The endpoints at a path, with their methods. -/
def endpointsAt (root path : String) : List (String × Endpoint) :=
  let segments := Text.splitOn '/' path
  (routes root).filterMap fun r =>
    (fit? (Text.splitOn '/' r.path) segments).map fun segment => (r.method, r.endpoint segment)

/-- A path with a slash at its end if it had none, else without. -/
def withOtherEnd (path : String) : String :=
  if path.endsWith "/" then
    String.ofList (path.toList.reverse.dropWhile (· == '/')).reverse
  else path ++ "/"

/-- Where a request leads; at a known path there is a method that is `allowed`. -/
inductive Destination where
  | endpoint (e : Endpoint)
  | wrongMethod (allowed : String)
  | elsewhere
  | nowhere
  deriving DecidableEq, Repr

/-- Where a method and a path lead. -/
def route (root method path : String) : Destination :=
  match endpointsAt root path with
  | [] =>
    if path ≠ "/" ∧ !(endpointsAt root (withOtherEnd path)).isEmpty then .elsewhere else .nowhere
  | first :: others =>
    match (first :: others).find? fun p => p.1 == method with
    | some p => .endpoint p.2
    | none => .wrongMethod first.1

end CrmAutomation.Api
