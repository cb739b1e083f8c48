import CrmAutomation.Api.Field
import CrmAutomation.Http.Dialogue
import CrmAutomation.Failure
import CrmAutomation.Json.Writer

/-!
# Responses

What the API answers, and how failures are answered: those of the domain with their status, a
value that makes no sense with status 400, anything else with status 500.
-/

namespace CrmAutomation.Api

/-- The body of a response. -/
inductive Body where
  | json (v : Value)
  | text (s : String)

/-- The characters of a body. -/
def Body.characters : Body → String
  | .json v => Json.write .compactUnicode v
  | .text s => s

/-- A response. Header names are in lower case. -/
structure Response where
  status : Int
  headers : List (String × String) := []
  body : Body

namespace Response

def json (status : Int) (v : Value) : Response := { status := status, body := .json v }

/-- A response that says one thing. -/
def detail (status : Int) (text : String) : Response := json status (.obj [("detail", .str text)])

/-- The failure to send a number that JSON does not have. -/
def unsendable : Failure := .system .valueError "Out of range float values are not JSON compliant"

/-- A response to a request that was not understood; what was looked at is sent back, if it can
be. -/
def complaints (cs : List Complaint) : Except Failure Response :=
  if cs.all fun c => c.input.isFinite then
    .ok (json 422 (.obj [("detail", .list (cs.map Complaint.toValue))]))
  else .error unsendable

/-- A response to a request without permission. -/
def unauthorized (text : String) : Response :=
  { detail 401 text with headers := [("www-authenticate", "Bearer")] }

/-- The kind of content of a response. -/
def contentType (r : Response) : String :=
  match r.body with
  | .json _ => "application/json"
  | .text _ => "text/plain; charset=utf-8"

/-- The length of the body in bytes. -/
def contentLength (r : Response) : Nat := r.body.characters.utf8ByteSize

/-- What is read of the body: nothing of a response to a request for its headers. -/
def readable (method : String) (r : Response) : Body :=
  if method = "HEAD" then .text "" else r.body

/-- The value of a header. -/
def header? (name : String) (r : Response) : Option String :=
  if name = "content-type" then some r.contentType
  else if name = "content-length" then some (toString r.contentLength)
  else (r.headers.find? fun h => h.1 == name).map (·.2)

/-- A response with a header, which replaces one of that name. -/
def withHeader (r : Response) (h : String × String) : Response :=
  { r with headers := r.headers.filter (fun o => o.1 != h.1) ++ [h] }

def withHeaders (r : Response) (hs : List (String × String)) : Response := hs.foldl withHeader r

end Response

/-! ## Failures -/

/-- Whether a fault of the system means a value that makes no sense. -/
def isBadValue : SystemFault → Bool
  | .valueError => true
  | .invalidModel => true
  | .unencodable => true
  | _ => false

/-- The list that explains a failure. -/
def explanation : Failure → Members
  | .validation _ errors => if errors.isEmpty then [] else [("errors", .list errors)]
  | .invalidGraph problems =>
    [("errors", .list (problems.map fun p =>
      .obj [("code", .str "invalid_graph"), ("message", .str p)]))]
  | _ => []

/-- The wording of a fault of the system; nobody outside learns it in production. -/
def faultText (hidden : Bool) (f : Failure) : String :=
  if hidden || f.text == "" then "Internal server error" else f.text

/-- The response to a request that failed. -/
def failureResponse (hidden : Bool) (requestId : String) (f : Failure) : Response :=
  let body (text : String) : Value :=
    .obj ([("detail", .str text), ("request_id", .str requestId)] ++ explanation f)
  match f with
  | .system kind m =>
    if isBadValue kind then .json 400 (body m) else .json 500 (body (faultText hidden f))
  | f => .json (f.status?.getD 500) (body f.text)

end CrmAutomation.Api
