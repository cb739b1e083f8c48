import CrmAutomation.Proofs.Service.Errands

/-!
# What a delivery sends

A delivery asks the registry for the endpoint and then posts the payload to it. A `Delivery` is
one with the replies that it meets; its webhooks are the posted requests, and each of them is the
request that `Service.deliveryRequest` makes of what the registry answered, as it is sent
(`Delivery.exists_of_mem_webhooks`). So it carries the payload's text, and the headers that the
endpoint's secret makes of it (`Delivery.of_mem_webhooks`).
-/

namespace CrmAutomation

namespace Service

/-- A call asks with its method only. -/
theorem method_of_mem_call {α : Type} {s : Service} {method path : String} {body : Option Value}
    {headers : List (String × String)} {allowMissing : Bool}
    {read : Option Http.Reply → Except Failure α} {replies : List (Except Failure Http.Reply)}
    {r : Http.Request}
    (h : r ∈ ((s.call method path body headers allowMissing read).answer replies).1) :
    r.method = method := by
  unfold call at h
  cases hrequest : s.request method path body headers with
  | error f =>
    rw [hrequest] at h
    cases h
  | ok request =>
    rw [hrequest] at h
    rw [List.mem_singleton.mp h, (Http.Request.keeps_complete request).method]
    exact (of_request hrequest).1

theorem of_deliveryRequest {freshId : String} {now : Int} {endpoint payload : Members}
    {fallback secret deliveryId : String} {request : Http.Request}
    (hsecret : endpointSecret endpoint fallback = .ok secret)
    (h : deliveryRequest freshId now endpoint fallback payload deliveryId = .ok request) :
    request.body = some (Json.write .spaced (.obj payload)) ∧
      request.headers
        = deliveryHeaders freshId now secret deliveryId (Json.write .spaced (.obj payload)) := by
  cases hurl : endpointUrl (Members.getD "url" endpoint) with
  | error f =>
    rw [deliveryRequest, hsecret, hurl] at h
    cases h
  | ok url =>
    simp only [deliveryRequest, hsecret, hurl, bind, Except.bind, pure, Except.pure, throw,
      throwThe, MonadExceptOf.throw] at h
    split at h
    · cases h
    · cases h
      exact ⟨rfl, rfl⟩

/-- A delivery and the replies that it meets. -/
structure Delivery where
  service : Service
  freshId : String
  second : Int
  fallback : String
  organization : String
  endpoint : String
  payload : Members
  id : String
  timeout : String
  replies : List (Except Failure Http.Reply)

namespace Delivery

variable (d : Delivery)

/-- What the registry says about the endpoint. -/
def resolution : Except Failure (Option Members) :=
  ((d.service.resolve d.organization d.endpoint).answer d.replies).2.2

/-- The secret that the delivery is signed with. -/
def secret? : Except Failure String := do
  endpointSecret ((← d.resolution).getD []) d.fallback

/-- The body that is delivered. -/
def text : String := Json.write .spaced (.obj d.payload)

/-- The requests that are made. -/
def requests : List Http.Request :=
  ((d.service.deliver d.freshId d.second d.fallback d.organization d.endpoint d.payload d.id
    d.timeout).answer d.replies).1

/-- The requests that are made to the endpoint. -/
def webhooks : List Http.Request := d.requests.filter fun r => r.method == "POST"

variable {d}

/-- A webhook is what the request of the delivery is when it is sent. -/
theorem exists_of_mem_webhooks {r : Http.Request} (h : r ∈ d.webhooks) :
    ∃ known request, d.resolution = .ok known ∧
      deliveryRequest d.freshId d.second (known.getD []) d.fallback d.payload d.id
        = .ok request ∧ r = request.complete := by
  obtain ⟨asked, posted⟩ := List.mem_filter.mp h
  rw [requests, deliver, Http.Dialogue.answer_andThen, List.mem_append] at asked
  rcases asked with first | asked
  · have method := method_of_mem_call first
    rw [method] at posted
    cases posted
  · cases hr : d.resolution with
    | error f =>
      simp only [resolution] at hr
      simp only [hr, Http.Dialogue.answer, List.not_mem_nil] at asked
    | ok known =>
      refine ⟨known, ?_⟩
      simp only [resolution] at hr
      simp only [hr] at asked
      split at asked
      · cases asked
      · cases hrequest : deliveryRequest d.freshId d.second (known.getD []) d.fallback d.payload
          d.id with
        | error f =>
          simp only [hrequest, Http.Dialogue.answer, List.not_mem_nil] at asked
        | ok request =>
          simp only [hrequest] at asked
          exact ⟨request, rfl, rfl, List.mem_singleton.mp asked⟩

/-- What is sent: the payload's text, with the headers that the secret makes. -/
theorem of_mem_webhooks {r : Http.Request} {secret : String} (hsecret : d.secret? = .ok secret)
    (h : r ∈ d.webhooks) :
    ∃ request : Http.Request, r.Keeps request ∧ request.body = some d.text ∧
      request.headers = deliveryHeaders d.freshId d.second secret d.id d.text := by
  obtain ⟨known, request, hknown, hrequest, hr⟩ := exists_of_mem_webhooks h
  rw [secret?, hknown] at hsecret
  replace hsecret : endpointSecret (known.getD []) d.fallback = .ok secret := hsecret
  obtain ⟨hbody, hheaders⟩ := of_deliveryRequest hsecret hrequest
  exact ⟨request, hr ▸ Http.Request.keeps_complete request, hbody, hheaders⟩

end Delivery

end Service

end CrmAutomation
