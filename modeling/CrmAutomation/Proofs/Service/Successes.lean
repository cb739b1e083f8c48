import CrmAutomation.Proofs.Service.Failures

/-!
# When the methods of the clients succeed

Setting a stage, adding a tag, sending a mail and delivering a webhook have their effect at the
service or the endpoint that they ask last with another method than `GET`. They report success
exactly if the reply to that request has no error status (`Errand.succeeds_iff`), where a mail
also needs a reply that its id can be looked for in. So a redirection counts as success, although
nothing was delivered, and a mail that was accepted may be reported as failed
(`Errand.accepted_mail_fails`).
-/

namespace CrmAutomation

namespace Service

open Http Url

variable {α : Type} {s : Service} {replies : List (Except Failure Reply)}

/-! ## Calls -/

/-- A call whose path must exist succeeds if the reply is no error and can be read. -/
theorem exists_ok_call_iff {method path : String} {body : Option Value}
    {headers : List (String × String)} {read : Option Reply → Except Failure α}
    (hmethod : method ≠ "GET")
    (h : ∀ x ∈ (s.call method path body headers false read).exchanges replies,
      Answers x.1 x.2) :
    (∃ a, (s.call method path body headers false read).result replies = .ok a) ↔
      ∃ q r, ((s.call method path body headers false read).exchanges replies).getLast?
          = some (q, .ok r) ∧
        q.method ≠ "GET" ∧ isError r.status = false ∧ ∃ a, read (some r) = .ok a := by
  rcases call_cases h with ⟨kind, m, -, hcall⟩ | ⟨q, verdict, hrequest, hexchanges, judged, hanswer⟩
  · rw [hcall]
    exact iff_of_false (by simp [Dialogue.result, Dialogue.answer])
      (by simp [Dialogue.exchanges])
  · have effect : q.complete.method ≠ "GET" := by
      rwa [(Http.Request.keeps_complete q).method, (of_request hrequest).1]
    rw [hexchanges, Dialogue.result, hanswer]
    generalize replies.headD Dialogue.defaultReply = reply at judged ⊢
    cases judged with
    | refused passes error =>
      refine iff_of_false (by simp [Except.bind]) ?_
      rintro ⟨q', r, hlast, -, fine, -⟩
      simp only [List.getLast?_singleton, Option.some.injEq, Prod.mk.injEq] at hlast
      simp [error r hlast.2] at fine
    | missing allowed eq status => cases allowed
    | @accepted r eq status =>
      subst eq
      simp [Except.bind, effect, status]

/-- A call that makes no use of the reply needs one that is no error. -/
theorem exists_ok_call_iff_of_unread {method path : String} {body : Option Value}
    {headers : List (String × String)} (hmethod : method ≠ "GET")
    (h : ∀ x ∈ (s.call method path body headers false fun _ => .ok ()).exchanges replies,
      Answers x.1 x.2) :
    (∃ a, (s.call method path body headers false fun _ => .ok ()).result replies = .ok a) ↔
      ∃ q r, ((s.call method path body headers false fun _ => .ok ()).exchanges
          replies).getLast? = some (q, .ok r) ∧
        q.method ≠ "GET" ∧ isError r.status = false := by
  refine (exists_ok_call_iff hmethod h).trans (exists_congr fun q => exists_congr fun r => ?_)
  exact and_congr Iff.rfl (and_congr_right fun _ => and_iff_left ⟨(), rfl⟩)

/-! ## Deliveries -/

theorem method_of_deliveryRequest {freshId : String} {now : Int} {endpoint payload : Members}
    {fallback deliveryId : String} {q : Http.Request}
    (h : deliveryRequest freshId now endpoint fallback payload deliveryId = .ok q) :
    q.method = "POST" := by
  simp only [deliveryRequest, bind, Except.bind, pure, Except.pure, throw, throwThe,
    MonadExceptOf.throw] at h
  repeat' split at h
  all_goals first
    | exact Except.ok.inj h ▸ rfl
    | cases h

/-- Once the registry has been asked, a delivery has failed or posts once. -/
theorem posting_cases (freshId : String) (now : Int) (fallback endpoint : String)
    (payload : Members) (deliveryId timeout : String) (resolved : Except Failure (Option Members)) :
    (∃ f, posting freshId now fallback endpoint payload deliveryId timeout resolved
      = .done (.error f)) ∨
    ∃ q : Http.Request, q.method = "POST" ∧
      posting freshId now fallback endpoint payload deliveryId timeout resolved
        = .exchange q (deliveryStatus endpoint timeout) := by
  cases resolved with
  | error f => exact .inl ⟨f, rfl⟩
  | ok known =>
    cases hurl : (Members.getD "url" (known.getD [])).isTruthy with
    | false => exact .inl ⟨_, posting_of_not_isTruthy _ hurl⟩
    | true =>
      cases hrequest : deliveryRequest freshId now (known.getD []) fallback payload deliveryId with
      | error f => exact .inl ⟨f, posting_of_error _ hurl hrequest⟩
      | ok q => exact .inr ⟨q, method_of_deliveryRequest hrequest, posting_of_ok _ hurl hrequest⟩

theorem deliveryStatus_eq_ok_iff {q : Http.Request} {reply : Except Failure Reply}
    (h : Answers q reply) (endpoint timeout : String) (v : Int) :
    deliveryStatus endpoint timeout reply = .ok v ↔
      ∃ r, reply = .ok r ∧ isError r.status = false ∧ r.status = v := by
  cases h with
  | reply r typed => cases hr : isError r.status <;> simp [deliveryStatus, hr]
  | fault m h =>
    simp only [transportFaults, List.mem_cons, List.not_mem_nil, or_false] at h
    rcases h with rfl | rfl | rfl | rfl <;> simp [deliveryStatus]

/-- A delivery succeeds if the endpoint was posted to and its reply is no error. -/
theorem deliver_eq_ok_iff {freshId fallback organization endpoint deliveryId timeout : String}
    {now : Int} {payload : Members}
    (h : ∀ x ∈ (s.deliver freshId now fallback organization endpoint payload deliveryId
      timeout).exchanges replies, Answers x.1 x.2) (v : Int) :
    (s.deliver freshId now fallback organization endpoint payload deliveryId timeout).result
        replies = .ok v ↔
      ∃ q r, ((s.deliver freshId now fallback organization endpoint payload deliveryId
          timeout).exchanges replies).getLast? = some (q, .ok r) ∧
        q.method ≠ "GET" ∧ isError r.status = false ∧ r.status = v := by
  rw [deliver_eq, Dialogue.exchanges_andThen] at h
  rw [deliver_eq, Dialogue.exchanges_andThen, Dialogue.result_andThen]
  generalize (s.resolve organization endpoint).result replies = resolved at h ⊢
  have asked : ∀ x ∈ (s.resolve organization endpoint).exchanges replies, x.1.method = "GET" :=
    fun x hx => method_of_mem_call (Dialogue.map_fst_exchanges _ _ ▸ List.mem_map_of_mem hx)
  rcases posting_cases freshId now fallback endpoint payload deliveryId timeout resolved with
    ⟨f, hposting⟩ | ⟨q, hmethod, hposting⟩
  · -- Nothing was posted: the last exchange, if there is one, asked for the endpoint.
    rw [hposting, Dialogue.exchanges, List.append_nil]
    refine iff_of_false (by simp [Dialogue.result, Dialogue.answer]) ?_
    rintro ⟨q, r, hlast, effect, -⟩
    exact effect (asked _ (List.mem_of_getLast? hlast))
  · rw [hposting, Dialogue.exchanges_exchange] at h ⊢
    have answers := h _ (List.mem_append_right _ (List.mem_singleton_self _))
    rw [Dialogue.result, Dialogue.answer_exchange,
      Http.Request.receive_of_answers answers (Http.Request.keeps_complete q).url,
      deliveryStatus_eq_ok_iff answers, List.getLast?_append]
    have effect : q.complete.method ≠ "GET" := by
      rw [(Http.Request.keeps_complete q).method, hmethod]
      decide
    simp [effect]

/-! ## All methods -/

namespace Errand

theorem exists_ok_setStage_iff {organization contact stage : String}
    (h : ∀ x ∈ (setStage organization contact stage).exchanges s replies, Answers x.1 x.2) :
    (∃ a, (setStage organization contact stage).result s replies = .ok a) ↔
      ∃ q r, ((setStage organization contact stage).exchanges s replies).getLast?
          = some (q, .ok r) ∧ q.method ≠ "GET" ∧ isError r.status = false :=
  exists_ok_call_iff_of_unread (by decide) h

/-- A mail also needs a reply that its id can be looked for in. -/
theorem exists_ok_sendTemplate_iff {organization template address : String}
    {mergeFields : Members} {fromName : Value} {key : Option String}
    (h : ∀ x ∈ (sendTemplate organization template address mergeFields fromName key).exchanges s
      replies, Answers x.1 x.2) :
    (∃ a, (sendTemplate organization template address mergeFields fromName key).result s replies
        = .ok a) ↔
      ∃ q r, ((sendTemplate organization template address mergeFields fromName key).exchanges s
          replies).getLast? = some (q, .ok r) ∧ q.method ≠ "GET" ∧ isError r.status = false ∧
        r.IsShallow ∧ ∀ v, r.json = .ok v → ∃ ms, v = .obj ms := by
  refine (exists_ok_call_iff (by decide) h).trans (exists_congr fun q => exists_congr fun r => ?_)
  exact and_congr Iff.rfl (and_congr_right fun _ => and_congr_right fun _ =>
    (hingesOn_messageId r).exists_ok_iff)

/-- The methods that have an effect once: one that is asked for where the path must exist. -/
def HasEffect : Errand → Prop
  | .setStage .. | .addTag .. | .sendTemplate .. | .deliver .. => True
  | _ => False

/-- A reply that tells of the effect of a method: that to a mail must be an object or no JSON. -/
def Acknowledges : Errand → Reply → Prop
  | .sendTemplate .., r => r.IsShallow ∧ ∀ v, r.json = .ok v → ∃ ms, v = .obj ms
  | _, _ => True

/-- A method reports success exactly if the last reply is to a request that is no question, and is
no error. -/
theorem succeeds_iff (s : Service) (e : Errand) (he : e.HasEffect)
    {replies : List (Except Failure Reply)} (h : ∀ x ∈ e.exchanges s replies, Answers x.1 x.2) :
    (∃ a, e.result s replies = .ok a) ↔
      ∃ q r, (e.exchanges s replies).getLast? = some (q, .ok r) ∧ q.method ≠ "GET" ∧
        (r.status < 400 ∨ 599 < r.status) ∧ e.Acknowledges r := by
  have fine (r : Reply) : isError r.status = false ↔ r.status < 400 ∨ 599 < r.status := by
    simp only [isError, Bool.and_eq_false_iff, decide_eq_false_iff_not]
    omega
  simp only [← fine]
  cases e with
  | setStage => simpa only [Acknowledges, and_true] using exists_ok_setStage_iff h
  | addTag =>
    simp only [Acknowledges, and_true]
    exact exists_ok_call_iff_of_unread (by decide) h
  | sendTemplate => exact exists_ok_sendTemplate_iff h
  | deliver freshId now fallback organization endpoint payload deliveryId timeout =>
    refine (exists_congr fun v => deliver_eq_ok_iff h v).trans ?_
    simp only [Acknowledges, and_true]
    constructor
    · rintro ⟨v, q, r, hlast, effect, fine, -⟩
      exact ⟨q, r, hlast, effect, fine⟩
    · rintro ⟨q, r, hlast, effect, fine⟩
      exact ⟨r.status, q, r, hlast, effect, fine, rfl⟩
  | _ => exact he.elim

/-- A stage to set. -/
def setting : Errand := setStage "org-1" "c-1" "won"

theorem isAskable_setting : setting.IsAskable := ⟨trivial, by decide, by decide⟩

theorem succeeds_iff_of_created :
    setting.HasEffect ∧
    (∀ x ∈ setting.exchanges pipeline [.ok ⟨201, ""⟩], Answers x.1 x.2) ∧
    ∃ a, setting.result pipeline [.ok ⟨201, ""⟩] = .ok a := by
  obtain ⟨q, hq, hmethod⟩ := Option.map_eq_some_iff.mp
    (show (setting.request? pipeline).map (·.method) = some "PUT" by decide +kernel)
  have answers := answers_of_isSingle (e := setting) (s := pipeline) trivial isAskable_setting
    isScheme_http ⟨201, ""⟩
  refine ⟨trivial, answers, (succeeds_iff pipeline setting trivial answers).mpr ⟨q, ⟨201, ""⟩, ?_⟩⟩
  rw [exchanges_of_request? (e := setting) trivial hq]
  exact ⟨rfl, hmethod ▸ by decide, by decide, trivial⟩

/-- The messaging service at an address. -/
def messaging : Service := { pipeline with name := "messaging" }

theorem configured_messaging : configured "messaging" "http://svc" "" = .ok messaging := by
  with_unfolding_all rfl

/-- A mail to send. -/
def mail : Errand := sendTemplate "org-1" "welcome" "a@b.co" [] .null none

theorem isAskable_mail : mail.IsAskable :=
  ⟨⟨by simp [Value.isFinite, Value.membersFinite], nofun⟩, by decide, by decide⟩

/-- A reply with an empty list. -/
def listed : Reply := ⟨200, "[]"⟩

theorem json_listed : listed.json = .ok (.list []) := by
  have written : Json.write .spaced (.list []) = listed.body := by decide +kernel
  rw [Reply.json, ← written]
  exact Json.readBytes_write Json.isSeparating_spaced rfl trivial (by decide)

/-- A mail that is accepted with a list fails, and a redirected setting of a stage succeeds. -/
theorem accepted_mail_fails :
    configured "messaging" "http://svc" "" = .ok messaging ∧
    configured "pipeline" "http://svc" "" = .ok pipeline ∧
    (mail.last? messaging [.ok listed] = some (.ok listed) ∧
      ¬ ∃ a, mail.result messaging [.ok listed] = .ok a) ∧
    (setting.last? pipeline [.ok ⟨302, ""⟩] = some (.ok ⟨302, ""⟩) ∧
      ∃ a, setting.result pipeline [.ok ⟨302, ""⟩] = .ok a) := by
  refine ⟨configured_messaging, configured_pipeline, ?_, ?_⟩
  · obtain ⟨q, hq⟩ := Option.isSome_iff_exists.mp
      ((isSome_request?_iff_isAskable messaging mail).mpr isAskable_mail)
    have single : mail.exchanges messaging [.ok listed] = [(q, .ok listed)] :=
      exchanges_of_request? (e := mail) trivial hq
    have answers := answers_of_isSingle (e := mail) (s := messaging) trivial isAskable_mail
      isScheme_http listed
    refine ⟨by rw [last?, single]; rfl, fun succeeds => ?_⟩
    obtain ⟨q', r, hlast, -, -, -, objects⟩ := (exists_ok_sendTemplate_iff answers).mp succeeds
    have same : [(q, Except.ok listed)].getLast? = some (q', Except.ok r) := single ▸ hlast
    obtain rfl : listed = r := Except.ok.inj (congrArg Prod.snd (Option.some.inj same))
    obtain ⟨ms, hms⟩ := objects _ json_listed
    cases hms
  · obtain ⟨q, hq, hmethod⟩ := Option.map_eq_some_iff.mp
      (show (setting.request? pipeline).map (·.method) = some "PUT" by decide +kernel)
    have single : setting.exchanges pipeline [.ok ⟨302, ""⟩] = [(q, .ok ⟨302, ""⟩)] :=
      exchanges_of_request? (e := setting) trivial hq
    have answers := answers_of_isSingle (e := setting) (s := pipeline) trivial isAskable_setting
      isScheme_http ⟨302, ""⟩
    refine ⟨by rw [last?, single]; rfl, (exists_ok_setStage_iff answers).mpr ⟨q, ⟨302, ""⟩, ?_⟩⟩
    exact ⟨congrArg List.getLast? single, hmethod ▸ by decide, by decide⟩

end Errand

end Service

end CrmAutomation
