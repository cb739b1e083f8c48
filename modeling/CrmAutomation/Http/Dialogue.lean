import CrmAutomation.Crypto.Base64Url
import CrmAutomation.Http.Url
import CrmAutomation.Json.Document
import CrmAutomation.Json.Writer

/-!
# Dialogues over HTTP

A `Dialogue` is what a client of a service does: it asks a request, sees the reply or the fault
of the transport, and goes on from there until it has a result. `Dialogue.answer` holds one
with replies that are given in advance and lists the requests that were made. Requests are sent with
the headers that every request has (`Request.complete`).
-/

namespace CrmAutomation.Http

/-- A request. Header names are in lower case. -/
structure Request where
  method : String
  url : Url
  headers : List (String × String)
  body : Option String
  deriving Inhabited

/-- A reply. -/
structure Reply where
  status : Int
  body : String
  deriving Inhabited

/-- Whether a status tells of an error. -/
def isError (status : Int) : Bool := 400 ≤ status && status ≤ 599

/-- Whether an error status may pass: too many requests, or a fault of the server. -/
def isRetryable (status : Int) : Bool := status == 429 || 500 ≤ status

/-- The value of a header. -/
def Request.header? (r : Request) (name : String) : Option String :=
  (r.headers.find? fun h => h.1 == name).map (·.2)

/-- The JSON value in the body of a reply. -/
def Reply.json (r : Reply) : Except Json.DocumentFault Value :=
  Json.readBytes (Bytes.ofText r.body)

/-! ## Requests -/

namespace Request

/-- The headers that every request has unless it brings its own. -/
def standardHeaders : List (String × String) :=
  [("accept", "*/*"), ("accept-encoding", "gzip, deflate"), ("connection", "keep-alive"),
    ("user-agent", "python-httpx/0.28.1")]

/-- A request with a header unless it has one of that name. -/
def withDefault (r : Request) (h : String × String) : Request :=
  if (r.header? h.1).isSome then r else { r with headers := r.headers ++ [h] }

/-- The header for the name and password in the URL, which wins over another authorization. -/
def withCredentials (r : Request) : Request :=
  match r.url.credentials with
  | ("", "") => r
  | (name, password) =>
    { r with headers := r.headers.filter (fun h => h.1 != "authorization") ++
        [("authorization", "Basic "
          ++ Crypto.Base64Url.encodePadded (Bytes.ofText (name ++ ":" ++ password)))] }

/-- The header for the host, if there is one. -/
def withHost (r : Request) : Request :=
  if r.url.host = "" then r else r.withDefault ("host", r.url.location)

/-- The header for the length of the body; a request that should have a body may have length
zero. -/
def withLength (r : Request) : Request :=
  match (Bytes.ofText (r.body.getD "")).length with
  | 0 =>
    if r.method ∈ ["POST", "PUT", "PATCH"] then r.withDefault ("content-length", "0") else r
  | n => r.withDefault ("content-length", toString n)

/-- The request as it is sent. -/
def complete (r : Request) : Request :=
  (standardHeaders.foldl withDefault r.withCredentials).withHost.withLength

/-- A request whose headers can be sent: they are in ASCII. -/
def sendable (r : Request) : Except Failure Request :=
  if r.headers.all fun h => Text.Domain.isAscii (h.1 ++ h.2).toList then .ok r
  else .error (.system .unencodable "")

/-- What comes back for a request: a reply to a URL without a type is of no use. -/
def receive (r : Request) : Except Failure Reply → Except Failure Reply
  | .ok reply =>
    if r.url.hasType then .ok reply
    else .error (.system .valueError ("unknown url type: " ++ Text.quoted r.url.text))
  | .error f => .error f

end Request

/-! ## Dialogues -/

/-- What a client does: it is done, or it asks and goes on with the reply. -/
inductive Dialogue (α : Type) where
  | done (result : Except Failure α)
  | ask (request : Request) (next : Except Failure Reply → Dialogue α)

namespace Dialogue

variable {α β : Type}

/-- Goes on with the result of a dialogue. -/
def andThen (d : Dialogue α) (f : Except Failure α → Dialogue β) : Dialogue β :=
  match d with
  | .done r => f r
  | .ask request next => .ask request fun reply => (next reply).andThen f

/-- Sends one request and reads its reply. -/
def exchange (request : Request) (read : Except Failure Reply → Except Failure α) : Dialogue α :=
  .ask request.complete fun reply => .done (read (request.receive reply))

/-- The reply to a request that is not scripted. -/
def defaultReply : Except Failure Reply := .ok ⟨200, "\x7b\x7d"⟩

/-- Holds a dialogue with given replies: the requests made, what is left of the replies, and the
result. -/
def answer (d : Dialogue α) (replies : List (Except Failure Reply)) :
    List Request × List (Except Failure Reply) × Except Failure α :=
  match d with
  | .done r => ([], replies, r)
  | .ask request next =>
    let (requests, left, result) := (next (replies.headD defaultReply)).answer replies.tail
    (request :: requests, left, result)

end Dialogue

end CrmAutomation.Http
