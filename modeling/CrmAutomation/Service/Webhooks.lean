import CrmAutomation.Service.Pipeline
import CrmAutomation.Webhook.Signature

/-!
# The webhook registry and deliveries

The registry knows the URL and the secret of each endpoint of an organization. A delivery posts
a payload to the endpoint, signed with its secret or else with the engine's own.
-/

namespace CrmAutomation.Service

/-- What the registry knows about an endpoint. -/
def resolve (s : Service) (organization endpoint : String) : Http.Dialogue (Option Members) :=
  s.call "GET" (organizationPath organization ("endpoints/" ++ endpoint)) none [] true fun reply =>
    match reply with
    | none => .ok none
    | some r => (s.object r).map some

def endpointExists (s : Service) (organization endpoint : String) : Http.Dialogue Bool :=
  (s.resolve organization endpoint).andThen fun r => .done (r.map (·.isSome))

/-- The headers of a delivery: without a secret it is not signed. -/
def deliveryHeaders (freshId : String) (now : Int) (secret deliveryId body : String) :
    List (String × String) :=
  if secret = "" then [("content-type", "application/json")]
  else (Signature.headers freshId now none (some deliveryId) secret (Bytes.ofText body)).map
    fun h => (h.1.toLower, h.2)

/-- The status of a delivery that arrived. -/
def deliveryStatus (endpoint timeout : String) : Except Failure Http.Reply → Except Failure Int
  | .error (.system kind m) =>
    match kind with
    | .readTimeout => .error (timedOut)
    | .connectTimeout => .error (timedOut)
    | .connectError => .error (unreachable m)
    | .protocolError => .error (unreachable m)
    | _ => .error (.system kind m)
  | .error f => .error f
  | .ok reply =>
    if Http.isError reply.status then
      .error (.collaborator ("Webhook " ++ endpoint ++ " returned " ++ toString reply.status)
        (Http.isRetryable reply.status) reply.status)
    else .ok reply.status
where
  timedOut : Failure :=
    .collaborator ("Webhook " ++ endpoint ++ " timed out after " ++ timeout ++ "s") true 504
  unreachable (m : String) : Failure :=
    .collaborator ("Webhook " ++ endpoint ++ " unreachable: " ++ m) true 503

/-- The URL of an endpoint, on its own or seen from nowhere. -/
def endpointUrl : Value → Except Failure Url
  | .str s => do return Url.join ⟨"", "", "", none, "", none, none⟩ (← Url.read s)
  | v => .error (.system .typeError ("Invalid type for url, got " ++ v.kindName))

/-- The secret that an endpoint is signed with. -/
def endpointSecret (endpoint : Members) (fallback : String) : Except Failure String :=
  match (Members.getD "secret" endpoint).orElse (.str fallback) with
  | .str s => .ok s
  | v => .error (.system .attributeError
      ("'" ++ v.kindName ++ "' object has no attribute 'encode'"))

/-- The request of a delivery. -/
def deliveryRequest (freshId : String) (now : Int) (endpoint : Members) (fallback : String)
    (payload : Members) (deliveryId : String) : Except Failure Http.Request := do
  let body := Json.write .spaced (.obj payload)
  let secret ← endpointSecret endpoint fallback
  let url ← endpointUrl (Members.getD "url" endpoint)
  let headers := deliveryHeaders freshId now secret deliveryId body
  if headers.any fun h => !isHeaderText h.2 then throw (.system .unencodable "")
  return ⟨"POST", url, headers, some body⟩

/-- Delivers a payload; the result is the status of the endpoint's reply. -/
def deliver (s : Service) (freshId : String) (now : Int) (fallbackSecret organization endpoint : String)
    (payload : Members) (deliveryId timeout : String) : Http.Dialogue Int :=
  (s.resolve organization endpoint).andThen fun resolved =>
    match resolved with
    | .error f => .done (.error f)
    | .ok known =>
      let ms := known.getD []
      if !(Members.getD "url" ms).isTruthy then
        .done (.error (.collaborator ("Webhook endpoint " ++ endpoint ++ " not found") false 404))
      else match deliveryRequest freshId now ms fallbackSecret payload deliveryId with
        | .error f => .done (.error f)
        | .ok request => .exchange request (deliveryStatus endpoint timeout)

end CrmAutomation.Service
