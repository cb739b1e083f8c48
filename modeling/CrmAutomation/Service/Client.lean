import CrmAutomation.Http.Dialogue

/-!
# Clients of the CRM's services

A `Service` is one of the services that the engine calls, with its URL and the headers that go
with every request. `Service.call` asks it: timeouts, transport faults, status 429 and status
500 and above are failures that may pass, any other error status is final.
-/

namespace CrmAutomation

/-- A service and how to reach it. -/
structure Service where
  name : String
  base : Url
  headers : List (String × String)

namespace Service

/-- The header that a service token goes into. -/
def authorization (token : String) : List (String × String) :=
  if token = "" then [] else [("authorization", "Bearer " ++ token)]

/-- Whether a text can be the value of a header. -/
def isHeaderText (s : String) : Bool := s.toList.all fun c => c.toNat < 128

/-- A service by its address and token. -/
def configured (name address token : String) : Except Failure Service := do
  let trimmed := String.ofList (address.toList.reverse.dropWhile (· == '/')).reverse
  let base ← Url.read trimmed
  if !isHeaderText token then throw (.system .unencodable "")
  return ⟨name, base.asBase, ("accept", "application/json") :: authorization token⟩

/-- The request of a method, path, body and further headers. -/
def request (s : Service) (method path : String) (body : Option Value)
    (headers : List (String × String)) : Except Failure Http.Request := do
  let target ← Url.read path
  if headers.any fun h => !isHeaderText h.2 then throw (.system .unencodable "")
  let (contentType, text) ← match body with
    | none => pure ([], none)
    | some v =>
      if !v.isFinite then
        throw (.system .valueError "Out of range float values are not JSON compliant")
      else pure ([("content-type", "application/json")], some (Json.write .compactUnicode v))
  return ⟨method, s.base.join target, contentType ++ headers ++ s.headers, text⟩

/-- A reply that is no error, or nothing for status 404 where that is an answer. -/
def accept (s : Service) (method path : String) (allowMissing : Bool) :
    Except Failure Http.Reply → Except Failure (Option Http.Reply)
  | .error (.system kind m) =>
    match kind with
    | .readTimeout => .error (.collaborator (s.name ++ " timed out: " ++ m) true 504)
    | .connectTimeout => .error (.collaborator (s.name ++ " timed out: " ++ m) true 504)
    | .connectError => .error (.collaborator (s.name ++ " unreachable: " ++ m) true 503)
    | .protocolError => .error (.collaborator (s.name ++ " unreachable: " ++ m) true 503)
    | _ => .error (.system kind m)
  | .error f => .error f
  | .ok reply =>
    if allowMissing && reply.status == 404 then .ok none
    else if Http.isError reply.status then
      .error (.collaborator (s.name ++ " returned " ++ toString reply.status ++ " for " ++ method
        ++ " " ++ path) (Http.isRetryable reply.status) reply.status)
    else .ok (some reply)

/-- Asks a service and reads what it accepts. -/
def call {α : Type} (s : Service) (method path : String) (body : Option Value)
    (headers : List (String × String)) (allowMissing : Bool)
    (read : Option Http.Reply → Except Failure α) : Http.Dialogue α :=
  match s.request method path body headers with
  | .error f => .done (.error f)
  | .ok request => .exchange request fun reply => do read (← s.accept method path allowMissing reply)

/-- The object in the body of a reply. -/
def object (s : Service) (reply : Http.Reply) : Except Failure Members :=
  match reply.json with
  | .error fault =>
    match fault.failure with
    | .system .recursion m => .error (.system .recursion m)
    | _ => .error (.collaborator (s.name ++ " returned a non-JSON body: " ++ fault.message) false 502)
  | .ok (.obj ms) => .ok ms
  | .ok v => .error (.collaborator (s.name ++ " returned " ++ v.kindName ++ ", expected an object")
      false 502)

end Service

end CrmAutomation
