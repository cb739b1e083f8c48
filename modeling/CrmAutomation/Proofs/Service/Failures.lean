import CrmAutomation.Proofs.Json.Documents
import CrmAutomation.Proofs.Service.Exchanges
import CrmAutomation.Proofs.Webhook.Headers

/-!
# How the methods of the clients fail

A result is classified if it is a value, or a failure of the service that is said to pass exactly
if what came back at last may pass (`Service.IsClassified`). A method comes to a classified result
exactly if it can ask, and can make use of what it accepts (`Errand.classified_iff`): a body may not
be nested too deeply, a contact must be described by what it reads from, a mail is answered with an
object or with no JSON, and the endpoint of a webhook needs a URL and a secret that are texts.
-/

namespace CrmAutomation

namespace Http

/-- The body of a reply is not nested too deeply to be looked at. -/
def Reply.IsShallow (r : Reply) : Prop :=
  ∀ fault m, r.json = .error fault → fault.failure ≠ .system .recursion m

theorem not_mayPass_of_accepted {r : Reply} (h : isError r.status = false) : ¬ MayPass (.ok r) := by
  simp only [isError, Bool.and_eq_false_iff, decide_eq_false_iff_not] at h
  simp only [MayPass]
  omega

theorem not_mayPass_of_missing {r : Reply} (h : r.status = 404) : ¬ MayPass (.ok r) := by
  simp only [MayPass]
  omega

end Http

namespace Service

open Http Url

variable {α β : Type} {last : Option (Except Failure Reply)} {s : Service}

/-! ## Classified results -/

/-- A value, or a failure of the service that is said to pass exactly if what came back at last may
pass. -/
def IsClassified (last : Option (Except Failure Reply)) : Except Failure α → Prop
  | .ok _ => True
  | .error (.collaborator _ retryable _) =>
    ∃ reply, last = some reply ∧ (retryable = true ↔ MayPass reply)
  | .error _ => False

theorem isClassified_map_iff {x : Except Failure α} (f : α → β) :
    IsClassified last (x.map f) ↔ IsClassified last x := by
  cases x with
  | ok a => rfl
  | error f => cases f <;> rfl

/-- What hinges on a condition is classified exactly if that holds. -/
theorem isClassified_iff_of_hingesOn {p : Prop} {x : Except Failure α} (h : HingesOn p x) :
    IsClassified last x ↔ p := by
  cases h with
  | ok holds a => exact iff_of_true trivial holds
  | error fails kind m => exact iff_of_false id fails

/-- A final failure is classified after a reply that does not pass. -/
theorem isClassified_final {reply : Except Failure Reply} (h : ¬ MayPass reply) (m : String)
    (status : Int) :
    IsClassified (α := α) (some reply) (.error (.collaborator m false status)) :=
  ⟨reply, rfl, by simpa using h⟩

/-! ## Bodies -/

/-- What the body of a reply is found to hold. -/
inductive Unpacked (r : Reply) : Except Failure Members → Prop
  | object {ms : Members} (json : r.json = .ok (.obj ms)) : Unpacked r (.ok ms)
  | unusable {m : String} (shallow : r.IsShallow) (other : ∀ ms, r.json ≠ .ok (.obj ms)) :
    Unpacked r (.error (.collaborator m false 502))
  | deep {m : String} (deep : ¬ r.IsShallow) : Unpacked r (.error (.system .recursion m))

theorem isShallow_of_json {r : Reply} {v : Value} (h : r.json = .ok v) : r.IsShallow :=
  fun fault m hfault => by simp [h] at hfault

theorem unpacked_object (s : Service) (r : Reply) : Unpacked r (s.object r) := by
  unfold object
  cases hjson : r.json with
  | ok v =>
    cases v with
    | obj ms => exact .object hjson
    | _ => exact .unusable (isShallow_of_json hjson) (by simp [hjson])
  | error fault =>
    dsimp only
    split
    · rename_i m deep
      exact .deep fun shallow => shallow fault m hjson deep
    · rename_i other
      refine .unusable (fun fault' m hfault' => ?_) (by simp [hjson])
      rw [hjson] at hfault'
      exact Except.error.inj hfault' ▸ other m

/-- Going on with the object in an accepted reply. -/
theorem isClassified_object_bind_iff {r : Reply} (h : isError r.status = false)
    {read : Members → Except Failure α} {p : Members → Prop}
    (hread : ∀ ms, HingesOn (p ms) (read ms)) :
    IsClassified (some (.ok r)) ((s.object r).bind read) ↔
      r.IsShallow ∧ ∀ ms, r.json = .ok (.obj ms) → p ms := by
  have unpacked := unpacked_object s r
  generalize s.object r = x at unpacked
  cases unpacked with
  | @object ms json =>
    refine (isClassified_iff_of_hingesOn (hread ms)).trans ?_
    simp [json, isShallow_of_json json]
  | unusable shallow other =>
    exact iff_of_true (isClassified_final (not_mayPass_of_accepted h) _ _)
      ⟨shallow, fun ms json => absurd json (other ms)⟩
  | deep deep => exact iff_of_false id fun h => deep h.1

/-- What the service answers to a mail can be used if it is an object, or no JSON. -/
theorem hingesOn_messageId (r : Reply) :
    HingesOn (r.IsShallow ∧ ∀ v, r.json = .ok v → ∃ ms, v = .obj ms) (messageId r) := by
  unfold messageId
  cases hjson : r.json with
  | ok v =>
    cases v with
    | obj ms => exact .ok (by simp [isShallow_of_json hjson]) _
    | _ => exact .error (by simp) _ _
  | error fault =>
    dsimp only
    split
    · rename_i m deep
      exact .error (fun h => h.1 fault m hjson deep) _ _
    · rename_i other
      refine .ok ⟨fun fault' m hfault' => ?_, by simp⟩ _
      rw [hjson] at hfault'
      exact Except.error.inj hfault' ▸ other m

/-! ## Deliveries -/

/-- The id that a delivery carries. -/
def deliveryLabel (freshId deliveryId : String) : String :=
  if deliveryId = "" then freshId else deliveryId

/-- An endpoint that can be posted to: its URL can be read, and it has a secret that signs the
delivery or none. A signed delivery carries its id. -/
structure IsPostable (freshId fallback deliveryId : String) (endpoint : Members) : Prop where
  address : ∃ text u, Members.getD "url" endpoint = .str text ∧ Url.read text = .ok u
  secret : ∃ secret, (Members.getD "secret" endpoint).orElse (.str fallback) = .str secret
  label : (Members.getD "secret" endpoint).orElse (.str fallback) = .str ""
    ∨ isHeaderText (deliveryLabel freshId deliveryId) = true

theorem hingesOn_endpointSecret (endpoint : Members) (fallback : String) :
    HingesOn (∃ secret, (Members.getD "secret" endpoint).orElse (.str fallback) = .str secret)
      (endpointSecret endpoint fallback) := by
  unfold endpointSecret
  cases (Members.getD "secret" endpoint).orElse (.str fallback) with
  | str secret => exact .ok ⟨secret, rfl⟩ secret
  | _ => exact .error (by simp) _ _

theorem eq_of_endpointSecret {endpoint : Members} {fallback secret : String}
    (h : endpointSecret endpoint fallback = .ok secret) :
    (Members.getD "secret" endpoint).orElse (.str fallback) = .str secret := by
  unfold endpointSecret at h
  split at h
  · rename_i heq
    rw [heq, Except.ok.inj h]
  · cases h

theorem hingesOn_endpointUrl (v : Value) :
    HingesOn (∃ text u, v = .str text ∧ Url.read text = .ok u) (endpointUrl v) := by
  cases v with
  | str text =>
    exact ((Url.hingesOn_read text).bind fun u _ => .ok trivial _).congr (by simp)
  | _ => exact .error (by simp) _ _

theorem isHeaderText_iff (s : String) : isHeaderText s = true ↔ ¬ Signature.IsForeign s := by
  simp [isHeaderText, Signature.IsForeign]

theorem isHeaderText_signature (secret : String) (t : Int) (body : Bytes) :
    isHeaderText (Signature.scheme ++ Signature.digest secret t body) = true := by
  rw [isHeaderText_iff]
  rintro ⟨c, hc, beyond⟩
  rw [String.toList_append, List.mem_append] at hc
  rcases hc with hc | hc
  · have ascii : Signature.scheme.toList.all (fun c => c.toNat < 128) = true := by decide
    have low := of_decide_eq_true (List.all_eq_true.mp ascii c hc)
    omega
  · exact Signature.not_isForeign_digest secret t body ⟨c, hc, beyond⟩

theorem isHeaderText_toString (t : Int) : isHeaderText (toString t) = true := by
  rw [isHeaderText_iff]
  rintro ⟨c, hc, beyond⟩
  rcases Number.isWritten_of_mem hc with h | rfl
  · simp only [Char.isDigit, Bool.and_eq_true, decide_eq_true_eq] at h
    have high : c.toNat ≤ 57 := h.2
    omega
  · exact absurd beyond (by decide)

/-- Of the headers of a delivery only its id may be unfit to be sent. -/
theorem any_deliveryHeaders (freshId : String) (now : Int) (secret deliveryId body : String) :
    (deliveryHeaders freshId now secret deliveryId body).any (fun h => !isHeaderText h.2) = false ↔
      secret = "" ∨ isHeaderText (deliveryLabel freshId deliveryId) = true := by
  have plain : isHeaderText "application/json" = true := by decide
  have stamp : isHeaderText now.repr = true := isHeaderText_toString now
  unfold deliveryHeaders
  split
  · simp [*]
  · simp [Signature.headers, Signature.headersAt, isHeaderText_signature, deliveryLabel, *]

/-- The request of a delivery can be made if the endpoint can be posted to. -/
theorem hingesOn_deliveryRequest (freshId : String) (now : Int) (endpoint : Members)
    (fallback : String) (payload : Members) (deliveryId : String) :
    HingesOn (IsPostable freshId fallback deliveryId endpoint)
      (deliveryRequest freshId now endpoint fallback payload deliveryId) := by
  have parts : IsPostable freshId fallback deliveryId endpoint ↔
      (∃ secret, (Members.getD "secret" endpoint).orElse (.str fallback) = .str secret)
        ∧ (∃ text u, Members.getD "url" endpoint = .str text ∧ Url.read text = .ok u)
        ∧ ((Members.getD "secret" endpoint).orElse (.str fallback) = .str ""
          ∨ isHeaderText (deliveryLabel freshId deliveryId) = true) :=
    ⟨fun h => ⟨h.secret, h.address, h.label⟩, fun h => ⟨h.2.1, h.1, h.2.2⟩⟩
  unfold deliveryRequest
  refine ((hingesOn_endpointSecret endpoint fallback).bind fun secret hsecret => ?_).congr
    parts.symm
  refine (hingesOn_endpointUrl _).bind fun url _ => ?_
  rw [eq_of_endpointSecret hsecret, Value.str.injEq, ← any_deliveryHeaders freshId now secret]
  simp only [bind, Except.bind, pure, Except.pure, throw, throwThe, MonadExceptOf.throw]
  cases (deliveryHeaders freshId now secret deliveryId (Json.write .spaced (.obj payload))).any
    fun h => !isHeaderText h.2 with
  | true => exact .error (by simp) _ _
  | false => exact .ok rfl _

/-- What an endpoint replies is classified. -/
theorem isClassified_deliveryStatus {q : Http.Request} {reply : Except Failure Reply}
    (h : Answers q reply) (endpoint timeout : String) :
    IsClassified (some reply) (deliveryStatus endpoint timeout reply) := by
  cases h with
  | reply r typed =>
    simp only [deliveryStatus]
    split
    · rename_i error
      exact ⟨_, rfl, isRetryable_iff error⟩
    · trivial
  | fault m h =>
    simp only [transportFaults, List.mem_cons, List.not_mem_nil, or_false] at h
    rcases h with rfl | rfl | rfl | rfl <;> exact ⟨_, rfl, by simp [MayPass]⟩

/-! ## Calls -/

/-- A call is classified if it can ask, and what it reads of an accepted reply is. -/
theorem isClassified_call_iff {method path : String} {body : Option Value}
    {headers : List (String × String)} {allowMissing : Bool}
    {read : Option Reply → Except Failure α} {replies : List (Except Failure Reply)}
    (h : ∀ x ∈ (s.call method path body headers allowMissing read).exchanges replies,
      Answers x.1 x.2)
    (missing : allowMissing = true → ∃ a, read none = .ok a) :
    IsClassified
        (((s.call method path body headers allowMissing read).exchanges replies).getLast?.map
          Prod.snd)
        ((s.call method path body headers allowMissing read).result replies) ↔
      (s.call method path body headers allowMissing read).first?.isSome ∧
        ∀ r, replies.headD Dialogue.defaultReply = .ok r → isError r.status = false →
          IsClassified (some (.ok r)) (read (some r)) := by
  rcases call_cases h with
    ⟨kind, m, -, hcall⟩ | ⟨q, verdict, hrequest, hexchanges, judged, hanswer⟩
  · rw [hcall]
    exact iff_of_false id (by simp [Dialogue.first?])
  · have asks : (s.call method path body headers allowMissing read).first?.isSome := by
      rw [call_of_ok hrequest]
      rfl
    rw [hexchanges, Dialogue.result, hanswer, List.getLast?_singleton, Option.map_some]
    cases judged with
    | refused passes error =>
      exact iff_of_true ⟨_, rfl, passes⟩ ⟨asks, fun r hr hfine => by simp [error r hr] at hfine⟩
    | missing allowed eq status =>
      obtain ⟨a, ha⟩ := missing allowed
      refine iff_of_true (by rw [Except.bind, ha]; trivial) ⟨asks, fun r hr hfine => ?_⟩
      rw [eq] at hr
      obtain rfl := Except.ok.inj hr
      simp [isError, status] at hfine
    | @accepted r eq status =>
      rw [eq]
      simp [asks, Except.bind, status]

theorem isClassified_resolve_iff {organization endpoint : String}
    {replies : List (Except Failure Reply)}
    (h : ∀ x ∈ (s.resolve organization endpoint).exchanges replies, Answers x.1 x.2) :
    IsClassified (((s.resolve organization endpoint).exchanges replies).getLast?.map Prod.snd)
        ((s.resolve organization endpoint).result replies) ↔
      (s.resolve organization endpoint).first?.isSome ∧
        ∀ r, replies.headD Dialogue.defaultReply = .ok r → isError r.status = false →
          r.IsShallow := by
  refine (isClassified_call_iff h fun _ => ⟨_, rfl⟩).trans (and_congr_right fun _ => ?_)
  refine forall_congr' fun r => imp_congr_right fun _ => imp_congr_right fun fine => ?_
  have same : (s.object r).map some = (s.object r).bind fun ms => .ok (some ms) := by
    cases s.object r <;> rfl
  refine (same ▸ isClassified_object_bind_iff fine (p := fun _ => True)
    fun ms => .ok trivial _).trans ?_
  simp

/-- Reading the contact that an object describes. -/
theorem hingesOn_contact (organization contact : String) (ms : Members) :
    HingesOn (Contact.Describes ms)
      (Contact.ofMembers (Members.setDefault "organization_id" (.str organization)
        (Members.setDefault "id" (.str contact) ms))) := by
  obtain ⟨id, hid⟩ := Members.get?_setDefault_self "id" (.str contact) ms
  obtain ⟨id', hid'⟩ := Members.exists_get?_setDefault hid "organization_id" (.str organization)
  refine (Contact.hingesOn_ofMembers hid').congr ?_
  rw [Contact.describes_setDefault_iff (.inr rfl), Contact.describes_setDefault_iff (.inl rfl)]

theorem isClassified_getContact_iff {organization contact : String}
    {replies : List (Except Failure Reply)}
    (h : ∀ x ∈ (s.getContact organization contact).exchanges replies, Answers x.1 x.2) :
    IsClassified (((s.getContact organization contact).exchanges replies).getLast?.map Prod.snd)
        ((s.getContact organization contact).result replies) ↔
      (s.getContact organization contact).first?.isSome ∧
        ∀ r, replies.headD Dialogue.defaultReply = .ok r → isError r.status = false →
          r.IsShallow ∧ ∀ ms, r.json = .ok (.obj ms) → Contact.Describes ms := by
  refine (isClassified_call_iff h fun _ => ⟨_, rfl⟩).trans (and_congr_right fun _ => ?_)
  refine forall_congr' fun r => imp_congr_right fun _ => imp_congr_right fun fine => ?_
  exact isClassified_object_bind_iff fine fun ms =>
    ((hingesOn_contact organization contact ms).bind fun c _ => .ok trivial _).congr
      (iff_of_eq (and_true _))

theorem isClassified_endpointExists_iff {organization endpoint : String}
    {replies : List (Except Failure Reply)}
    (h : ∀ x ∈ (s.endpointExists organization endpoint).exchanges replies, Answers x.1 x.2) :
    IsClassified
        (((s.endpointExists organization endpoint).exchanges replies).getLast?.map Prod.snd)
        ((s.endpointExists organization endpoint).result replies) ↔
      (s.resolve organization endpoint).first?.isSome ∧
        ∀ r, replies.headD Dialogue.defaultReply = .ok r → isError r.status = false →
          r.IsShallow := by
  rw [endpointExists, Dialogue.exchanges_andThen, Dialogue.exchanges, List.append_nil] at h
  rw [endpointExists, Dialogue.exchanges_andThen, Dialogue.result_andThen, Dialogue.exchanges,
    List.append_nil]
  exact (isClassified_map_iff _).trans (isClassified_resolve_iff h)

/-- What is done with a known endpoint is classified if it can be posted to, should it have a
URL. -/
theorem isClassified_posting_iff {freshId fallback endpoint deliveryId timeout : String} {now : Int}
    {payload ms : Members} {replies : List (Except Failure Reply)}
    {first : Http.Request × Except Failure Reply} (hfirst : ¬ MayPass first.2)
    (h : ∀ x ∈ (posting freshId now fallback endpoint payload deliveryId timeout
      (.ok (some ms))).exchanges replies, Answers x.1 x.2) :
    IsClassified
        (([first] ++ (posting freshId now fallback endpoint payload deliveryId timeout
          (.ok (some ms))).exchanges replies).getLast?.map Prod.snd)
        ((posting freshId now fallback endpoint payload deliveryId timeout
          (.ok (some ms))).result replies) ↔
      ((Members.getD "url" ms).isTruthy = true → IsPostable freshId fallback deliveryId ms) := by
  cases hurl : (Members.getD "url" ms).isTruthy with
  | false =>
    rw [posting_of_not_isTruthy (some ms) hurl]
    exact iff_of_true (isClassified_final hfirst _ _) (by simp)
  | true =>
    have hinges := hingesOn_deliveryRequest freshId now ms fallback payload deliveryId
    cases hrequest : deliveryRequest freshId now ms fallback payload deliveryId with
    | error f =>
      rw [hrequest] at hinges
      rw [posting_of_error (some ms) hurl hrequest]
      cases hinges with
      | error fails kind m => exact iff_of_false id (by simpa using fails)
    | ok q =>
      rw [posting_of_ok (some ms) hurl hrequest, Dialogue.exchanges_exchange] at h ⊢
      have answers := h _ (List.mem_singleton_self _)
      rw [Dialogue.result, Dialogue.answer_exchange,
        Http.Request.receive_of_answers answers (Http.Request.keeps_complete q).url]
      exact iff_of_true (isClassified_deliveryStatus answers _ _)
        fun _ => hinges.exists_ok_iff.mp ⟨q, hrequest⟩

/-- A delivery is classified if it can ask, and an endpoint with a URL that it is told of can be
posted to. -/
theorem isClassified_deliver_iff
    {freshId fallback organization endpoint deliveryId timeout : String} {now : Int} {payload : Members} {replies : List (Except Failure Reply)}
    (h : ∀ x ∈ (s.deliver freshId now fallback organization endpoint payload deliveryId
      timeout).exchanges replies, Answers x.1 x.2) :
    IsClassified (((s.deliver freshId now fallback organization endpoint payload deliveryId
          timeout).exchanges replies).getLast?.map Prod.snd)
        ((s.deliver freshId now fallback organization endpoint payload deliveryId timeout).result
          replies) ↔
      (s.resolve organization endpoint).first?.isSome ∧
        ∀ r, replies.headD Dialogue.defaultReply = .ok r → isError r.status = false →
          r.IsShallow ∧ ∀ ms, r.json = .ok (.obj ms) → (Members.getD "url" ms).isTruthy = true →
            IsPostable freshId fallback deliveryId ms := by
  rw [deliver_eq, Dialogue.exchanges_andThen] at h
  rw [deliver_eq, Dialogue.exchanges_andThen, Dialogue.result_andThen]
  rcases resolve_cases fun x hx => h x (List.mem_append_left _ hx) with
    ⟨kind, m, hcall⟩ | ⟨q, verdict, hfirst, hexchanges, judged, hanswer⟩
  · rw [hcall]
    exact iff_of_false id (by simp [Dialogue.first?])
  · rw [hexchanges, Dialogue.result, hanswer] at h ⊢
    rw [hfirst]
    generalize replies.headD Dialogue.defaultReply = reply at h judged ⊢
    cases judged with
    | refused passes error =>
      exact iff_of_true ⟨reply, rfl, passes⟩
        ⟨rfl, fun r hr fine => by simp [error r hr] at fine⟩
    | @missing r allowed eq status =>
      subst eq
      refine iff_of_true (isClassified_final (not_mayPass_of_missing status) _ _)
        ⟨rfl, fun r hr fine => ?_⟩
      obtain rfl := Except.ok.inj hr
      simp [isError, status] at fine
    | @accepted r eq status =>
      subst eq
      have final := fun m status' =>
        isClassified_final (α := Int) (not_mayPass_of_accepted status) m status'
      have unpacked := unpacked_object s r
      -- Only now may there be a second exchange, and what comes back at last is its reply.
      simp only [Option.isSome_some, Except.ok.injEq, forall_eq', status, true_and, true_imp_iff,
        Except.bind, resolution] at h ⊢
      generalize s.object r = x at h unpacked ⊢
      cases unpacked with
      | @object ms json =>
        simp only [json, Except.ok.injEq, Value.obj.injEq, forall_eq', isShallow_of_json json,
          true_and]
        exact isClassified_posting_iff (not_mayPass_of_accepted status)
          fun x hx => h x (List.mem_append_right _ hx)
      | unusable shallow other =>
        exact iff_of_true (final _ _) ⟨shallow, fun ms json => absurd json (other ms)⟩
      | deep deep => exact iff_of_false id fun h => deep h.1

/-! ## All methods -/

namespace Errand

/-- A method can make use of a reply that it accepts first. -/
def Reads : Errand → Reply → Prop
  | .getContact .., r => r.IsShallow ∧ ∀ ms, r.json = .ok (.obj ms) → Contact.Describes ms
  | .sendTemplate .., r => r.IsShallow ∧ ∀ v, r.json = .ok v → ∃ ms, v = .obj ms
  | .endpointExists .., r => r.IsShallow
  | .deliver freshId _ fallback _ _ _ deliveryId _, r =>
    r.IsShallow ∧ ∀ ms, r.json = .ok (.obj ms) → (Members.getD "url" ms).isTruthy = true →
      IsPostable freshId fallback deliveryId ms
  | _, _ => True

/-- A method comes to a value, or to a failure of the service that is said to pass exactly if what
came back at last may pass, exactly if it can ask and make use of what it accepts first. -/
theorem classified_iff (s : Service) (e : Errand) {replies : List (Except Failure Reply)}
    (h : ∀ x ∈ e.exchanges s replies, Answers x.1 x.2) :
    IsClassified (e.last? s replies) (e.result s replies) ↔
      e.IsAskable ∧ ∀ r, replies.headD Dialogue.defaultReply = .ok r →
        isError r.status = false → e.Reads r := by
  rw [← isSome_request?_iff_isAskable s]
  cases e with
  | getContact organization contact => exact isClassified_getContact_iff h
  | sendTemplate organization template address mergeFields fromName key =>
    refine (isClassified_call_iff h (by simp)).trans (and_congr_right fun _ => ?_)
    exact forall_congr' fun r => imp_congr_right fun _ => imp_congr_right fun _ =>
      isClassified_iff_of_hingesOn (hingesOn_messageId r)
  | endpointExists organization endpoint =>
    rw [request?, first?_endpointExists]
    exact isClassified_endpointExists_iff h
  | deliver freshId now fallback organization endpoint payload deliveryId timeout =>
    rw [request?, first?_deliver]
    exact isClassified_deliver_iff h
  | _ =>
    refine (isClassified_call_iff h fun _ => ⟨_, rfl⟩).trans (and_congr_right fun _ => ?_)
    exact forall_congr' fun r => imp_congr_right fun _ => imp_congr_right fun _ => Iff.rfl

/-- The pipeline service at an address. -/
def pipeline : Service :=
  ⟨"pipeline", ⟨"http", "", "svc", none, "", none, none⟩, [("accept", "application/json")]⟩

theorem configured_pipeline : configured "pipeline" "http://svc" "" = .ok pipeline := by
  with_unfolding_all rfl

theorem classified_iff_of_unavailable :
    (∀ x ∈ (getContact "org-1" "c-1").exchanges pipeline [.ok ⟨503, ""⟩], Answers x.1 x.2) ∧
    IsClassified ((getContact "org-1" "c-1").last? pipeline [.ok ⟨503, ""⟩])
      ((getContact "org-1" "c-1").result pipeline [.ok ⟨503, ""⟩]) := by
  have asks : (getContact "org-1" "c-1").IsAskable := ⟨trivial, by decide, by decide⟩
  have answers := answers_of_isSingle (e := getContact "org-1" "c-1") (s := pipeline) trivial asks
    isScheme_http ⟨503, ""⟩
  refine ⟨answers, (classified_iff pipeline _ answers).mpr ⟨asks, ?_⟩⟩
  intro r hr fine
  obtain rfl := Except.ok.inj hr
  exact absurd fine (by decide)

/-- A reply whose tags are a number. -/
def numberedTags : Reply := ⟨200, "\x7b\"tags\": 5\x7d"⟩

theorem json_numberedTags : numberedTags.json = .ok (.obj [("tags", .int 5)]) := by
  have written : Json.write .spaced (.obj [("tags", .int 5)]) = numberedTags.body := by
    decide +kernel
  have exact : (Value.obj [("tags", .int 5)]).IsExact :=
    ⟨⟨Value.isExact_int (by decide), trivial⟩, by simp⟩
  rw [Reply.json, ← written]
  exact Json.readBytes_write Json.isSeparating_spaced rfl exact (by decide)

/-- A contact whose tags are a number ends in no failure of the service. -/
theorem number_for_tags_unclassified :
    configured "pipeline" "http://svc" "" = .ok pipeline ∧
    (∀ x ∈ (getContact "org-1" "c-1").exchanges pipeline [.ok numberedTags], Answers x.1 x.2) ∧
    ¬ IsClassified ((getContact "org-1" "c-1").last? pipeline [.ok numberedTags])
      ((getContact "org-1" "c-1").result pipeline [.ok numberedTags]) := by
  have asks : (getContact "org-1" "c-1").IsAskable := ⟨trivial, by decide, by decide⟩
  have answers := answers_of_isSingle (e := getContact "org-1" "c-1") (s := pipeline) trivial asks
    isScheme_http numberedTags
  refine ⟨configured_pipeline, answers, fun classified => ?_⟩
  have reads := ((isClassified_getContact_iff answers).mp classified).2 numberedTags rfl (by decide)
  obtain ⟨xs, hxs⟩ := (reads.2 _ json_numberedTags).tags
  have number : ((Contact.either [("tags", .int 5)] "tags" "tag_ids").orElse (.list [])).items?
      = none := by rfl
  rw [number] at hxs
  cases hxs

end Errand

end Service

end CrmAutomation
