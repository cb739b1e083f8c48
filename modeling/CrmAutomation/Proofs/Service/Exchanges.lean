import CrmAutomation.Proofs.Contact.Reading
import CrmAutomation.Proofs.Service.Errands

/-!
# What comes back to the clients

A dialogue is a list of exchanges: each request with the reply or the fault that came back for it
(`Dialogue.exchanges`). What can come back is a reply from a URL that has a type, or a fault of the
transport (`Http.Answers`). A call makes one exchange or fails before it, and judges what comes
back: an error status and a fault are a failure of the service, which may pass exactly if the fault
or the status may (`Service.judged_accept`).
-/

namespace CrmAutomation

/-! ## URLs -/

namespace Url

theorem exists_invalid_of_hostText {cs : List Char} {f : Failure} (h : hostText cs = .error f) :
    ∃ m, f = invalid m := by
  unfold hostText at h
  simp only at h
  repeat' split at h
  all_goals first
    | exact ⟨_, (Except.error.inj h).symm⟩
    | cases h

theorem exists_invalid_of_portOf {cs : List Char} {f : Failure} (h : portOf cs = .error f) :
    ∃ m, f = invalid m := by
  unfold portOf at h
  simp only at h
  repeat' split at h
  all_goals first
    | exact ⟨_, (Except.error.inj h).symm⟩
    | cases h

/-- What is no URL is told so. -/
theorem exists_invalid_of_read {s : String} {f : Failure} (h : read s = .error f) :
    ∃ m, f = invalid m := by
  unfold read at h
  simp only [bind, Except.bind, pure, Except.pure, throw, throwThe, MonadExceptOf.throw] at h
  repeat' split at h
  all_goals first
    | exact ⟨_, (Except.error.inj h).symm⟩
    | cases h
  · rename_i hhost
    exact exists_invalid_of_hostText hhost
  · rename_i hport
    exact exists_invalid_of_portOf hport

theorem hingesOn_read (s : String) : HingesOn (∃ u, read s = .ok u) (read s) := by
  cases h : read s with
  | ok u => exact .ok ⟨u, rfl⟩ u
  | error f =>
    obtain ⟨m, rfl⟩ := exists_invalid_of_read h
    exact .error (by simp) _ _

/-- A scheme, which is a word before the first colon. -/
def IsScheme (scheme : String) : Prop :=
  scheme ≠ "" ∧ ∀ c ∈ scheme.toList, c ≠ ':' ∧ c ≠ '/'

theorem isScheme_http : IsScheme "http" := by
  have letters : "http".toList.all (fun c => c != ':' && c != '/') = true := by decide
  exact ⟨by decide, fun c hc => by simpa using List.all_eq_true.mp letters c hc⟩

theorem hasType_of_isScheme {u : Url} (h : IsScheme u.scheme) : u.hasType = true := by
  obtain ⟨hne, hchars⟩ := h
  have htext : ∃ rest, u.text.toList = u.scheme.toList ++ ':' :: rest := by
    simp only [text, if_neg hne, String.toList_append, List.append_assoc]
    exact ⟨_, rfl⟩
  obtain ⟨rest, htext⟩ := htext
  obtain ⟨c, cs, hscheme⟩ := List.exists_cons_of_ne_nil
    (fun hnil => hne (String.toList_injective (hnil.trans String.toList_empty.symm)) :
      u.scheme.toList ≠ [])
  have leads : u.text.startsWith ":" = false := by
    rw [← Bool.not_eq_true, String.startsWith_string_iff, htext, hscheme]
    intro hprefix
    exact (hchars c (hscheme ▸ List.mem_cons_self)).1 (List.cons_prefix_cons.mp hprefix).1.symm
  have drops : u.text.toList.dropWhile (fun c => c != ':' && c != '/') = ':' :: rest := by
    rw [htext, List.dropWhile_append_of_pos fun c hc => by simpa using hchars c hc]
    rfl
  rw [hasType, drops]
  simp [leads]

/-- Seen from a base, a path from the root has the scheme of the base. -/
theorem join_alone_scheme (base : Url) (cs : List Char) :
    (base.join (alone cs)).scheme = base.scheme := rfl

end Url

namespace Http

/-! ## Exchanges -/

/-- The faults of the transport: timeouts and broken connections. -/
def transportFaults : List SystemFault :=
  [.readTimeout, .connectTimeout, .connectError, .protocolError]

/-- What can come back for a request. -/
inductive Answers (q : Http.Request) : Except Failure Reply → Prop
  /-- A reply; only a URL that has a type can be asked. -/
  | reply (r : Reply) (typed : q.url.hasType = true) : Answers q (.ok r)
  | fault {kind : SystemFault} (m : String) (h : kind ∈ transportFaults) :
    Answers q (.error (.system kind m))

/-- What came back tells of something that may pass: a fault of the transport, too many requests or
a fault of the server. -/
def MayPass : Except Failure Reply → Prop
  | .ok r => r.status = 429 ∨ 500 ≤ r.status ∧ r.status ≤ 599
  | .error _ => True

theorem Request.receive_of_answers {q q' : Http.Request} {reply : Except Failure Reply}
    (h : Answers q' reply) (hurl : q'.url = q.url) : q.receive reply = reply := by
  cases h with
  | reply r typed => simp only [receive, ← hurl, typed, if_true]
  | fault m h => rfl

namespace Dialogue

variable {α β : Type}

/-- The requests that a dialogue makes, each with what comes back for it. -/
def exchanges :
    Dialogue α → List (Except Failure Reply) → List (Http.Request × Except Failure Reply)
  | .done _, _ => []
  | .ask request next, replies =>
    (request, replies.headD defaultReply)
      :: (next (replies.headD defaultReply)).exchanges replies.tail

/-- What a dialogue comes to. -/
def result (d : Dialogue α) (replies : List (Except Failure Reply)) : Except Failure α :=
  (d.answer replies).2.2

theorem map_fst_exchanges (d : Dialogue α) (replies : List (Except Failure Reply)) :
    (d.exchanges replies).map Prod.fst = (d.answer replies).1 := by
  induction d generalizing replies with
  | done result => rfl
  | ask request next ih => exact congrArg (request :: ·) (ih _ _)

theorem exchanges_andThen (d : Dialogue α) (f : Except Failure α → Dialogue β)
    (replies : List (Except Failure Reply)) :
    (d.andThen f).exchanges replies
      = d.exchanges replies ++ (f (d.result replies)).exchanges (d.answer replies).2.1 := by
  induction d generalizing replies with
  | done result => rfl
  | ask request next ih =>
    exact congrArg ((request, replies.headD defaultReply) :: ·) (ih _ _)

theorem result_andThen (d : Dialogue α) (f : Except Failure α → Dialogue β)
    (replies : List (Except Failure Reply)) :
    (d.andThen f).result replies = (f (d.result replies)).result (d.answer replies).2.1 := by
  induction d generalizing replies with
  | done result => rfl
  | ask request next ih => exact ih _ _

theorem exchanges_exchange (q : Http.Request) (read : Except Failure Reply → Except Failure α)
    (replies : List (Except Failure Reply)) :
    (Dialogue.exchange q read).exchanges replies = [(q.complete, replies.headD defaultReply)] := rfl

theorem answer_exchange (q : Http.Request) (read : Except Failure Reply → Except Failure α)
    (replies : List (Except Failure Reply)) :
    (Dialogue.exchange q read).answer replies
      = ([q.complete], replies.tail, read (q.receive (replies.headD defaultReply))) := rfl

end Dialogue

end Http

namespace Service

open Http Url

variable {α : Type} {s : Service} {method path : String} {body : Option Value}
  {headers : List (String × String)} {allowMissing : Bool}
  {read : Option Reply → Except Failure α} {replies : List (Except Failure Reply)}

/-! ## Calls -/

/-- How a call judges what comes back. -/
inductive Judged (allowMissing : Bool) (reply : Except Failure Reply) :
    Except Failure (Option Reply) → Prop
  | refused {m : String} {retryable : Bool} {status : Int}
    (passes : retryable = true ↔ MayPass reply)
    (error : ∀ r, reply = .ok r → isError r.status = true) :
    Judged allowMissing reply (.error (.collaborator m retryable status))
  /-- There is nothing, which is an answer. -/
  | missing {r : Reply} (allowed : allowMissing = true) (eq : reply = .ok r)
    (status : r.status = 404) : Judged allowMissing reply (.ok none)
  | accepted {r : Reply} (eq : reply = .ok r) (status : isError r.status = false) :
    Judged allowMissing reply (.ok (some r))

theorem isRetryable_iff {r : Reply} (h : isError r.status = true) :
    isRetryable r.status = true ↔ MayPass (.ok r) := by
  simp only [isError, Bool.and_eq_true, decide_eq_true_eq] at h
  simp only [isRetryable, MayPass, Bool.or_eq_true, beq_iff_eq, decide_eq_true_eq]
  omega

theorem judged_accept {q : Http.Request} {reply : Except Failure Reply} (h : Answers q reply) :
    Judged allowMissing reply (s.accept method path allowMissing reply) := by
  cases h with
  | reply r typed =>
    simp only [accept]
    split
    · rename_i missing
      simp only [Bool.and_eq_true, beq_iff_eq] at missing
      exact .missing missing.1 rfl missing.2
    · split
      · rename_i error
        exact .refused (isRetryable_iff error) fun _ hr => Except.ok.inj hr ▸ error
      · rename_i fine
        exact .accepted rfl (by simpa using fine)
  | fault m h =>
    simp only [transportFaults, List.mem_cons, List.not_mem_nil, or_false] at h
    rcases h with rfl | rfl | rfl | rfl <;>
      exact .refused (by simp [MayPass]) (by simp)

theorem call_of_error {f : Failure} (h : s.request method path body headers = .error f) :
    s.call method path body headers allowMissing read = .done (.error f) := by
  rw [call, h]

theorem call_of_ok {q : Http.Request} (h : s.request method path body headers = .ok q) :
    s.call method path body headers allowMissing read
      = .exchange q fun reply => (s.accept method path allowMissing reply).bind read := by
  rw [call, h]
  rfl

theorem exchanges_call_of_first? {q : Http.Request}
    (h : (s.call method path body headers allowMissing read).first? = some q) :
    (s.call method path body headers allowMissing read).exchanges replies
      = [(q, replies.headD Dialogue.defaultReply)] := by
  cases hrequest : s.request method path body headers with
  | error f =>
    rw [call_of_error hrequest] at h
    cases h
  | ok q' =>
    rw [call_of_ok hrequest] at h ⊢
    rw [Dialogue.exchanges_exchange, ← Option.some.inj h]

/-! ## Requests that can be made -/

/-- A request can be made if its path can be read, and its headers and body can be sent. -/
theorem hingesOn_request : HingesOn
    ((∃ target, Url.read path = .ok target)
      ∧ headers.any (fun h => !isHeaderText h.2) = false ∧ ∀ v ∈ body, v.isFinite = true)
    (s.request method path body headers) := by
  unfold request
  refine (Url.hingesOn_read path).bind fun target _ => ?_
  simp only [bind, Except.bind, pure, Except.pure, throw, throwThe, MonadExceptOf.throw]
  cases headers.any fun h => !isHeaderText h.2 with
  | true => exact .error (by simp) _ _
  | false =>
    cases body with
    | none => exact .ok (by simp) _
    | some v =>
      cases hv : v.isFinite with
      | true => simpa [hv] using HingesOn.ok trivial _
      | false => simpa [hv] using HingesOn.error not_false _ _

/-- A call fails before it asks, or it reads what it accepts of what comes back. -/
theorem call_cases (h : ∀ x ∈ (s.call method path body headers allowMissing read).exchanges replies,
      Answers x.1 x.2) :
    (∃ kind m, s.request method path body headers = .error (.system kind m)
      ∧ s.call method path body headers allowMissing read = .done (.error (.system kind m)))
    ∨ ∃ q verdict, s.request method path body headers = .ok q
      ∧ (s.call method path body headers allowMissing read).exchanges replies
          = [(q.complete, replies.headD Dialogue.defaultReply)]
      ∧ Judged allowMissing (replies.headD Dialogue.defaultReply) verdict
      ∧ (s.call method path body headers allowMissing read).answer replies
          = ([q.complete], replies.tail, verdict.bind read) := by
  cases hrequest : s.request method path body headers with
  | error f =>
    obtain ⟨kind, m, rfl⟩ := hingesOn_request.exists_system hrequest
    exact .inl ⟨kind, m, rfl, call_of_error hrequest⟩
  | ok q =>
    rw [call_of_ok hrequest, Dialogue.exchanges_exchange] at h ⊢
    have answers := h _ (List.mem_singleton_self _)
    refine .inr ⟨q, s.accept method path allowMissing _, rfl, rfl, judged_accept answers, ?_⟩
    rw [Dialogue.answer_exchange,
      Http.Request.receive_of_answers answers (Http.Request.keeps_complete q).url]

/-- What a call asks with can be sent. -/
theorem sendable_of_first?
    (h : (s.call method path body headers allowMissing read).first?.isSome) :
    headers.any (fun h => !isHeaderText h.2) = false ∧ ∀ v ∈ body, v.isFinite = true := by
  cases hrequest : s.request method path body headers with
  | error f =>
    rw [call_of_error hrequest] at h
    cases h
  | ok q => exact (hingesOn_request.exists_ok_iff.mp ⟨q, hrequest⟩).2

/-! ## Errands and their exchanges -/

namespace Errand

/-- What a method returns. -/
def Answer : Errand → Type
  | .getContact .. => Option Contact
  | .setStage .. | .addTag .. | .removeTag .. => Unit
  | .stageExists .. | .tagExists .. | .templateExists .. | .endpointExists .. => Bool
  | .sendTemplate .. => Value
  | .deliver .. => Int

/-- What a method does. -/
def dialogue (s : Service) : (e : Errand) → Dialogue e.Answer
  | .getContact organization contact => s.getContact organization contact
  | .setStage organization contact stage => s.setStage organization contact stage
  | .addTag organization contact tag => s.addTag organization contact tag
  | .removeTag organization contact tag => s.removeTag organization contact tag
  | .stageExists organization stage => s.stageExists organization stage
  | .tagExists organization tag => s.tagExists organization tag
  | .templateExists organization template => s.templateExists organization template
  | .sendTemplate organization template address mergeFields fromName key =>
    s.sendTemplate organization template address mergeFields fromName key
  | .endpointExists organization endpoint => s.endpointExists organization endpoint
  | .deliver freshId now fallbackSecret organization endpoint payload deliveryId timeout =>
    s.deliver freshId now fallbackSecret organization endpoint payload deliveryId timeout

/-- The requests of a method, each with what comes back for it. -/
def exchanges (s : Service) (e : Errand) (replies : List (Except Failure Reply)) :
    List (Http.Request × Except Failure Reply) :=
  (e.dialogue s).exchanges replies

/-- What a method comes to. -/
def result (s : Service) (e : Errand) (replies : List (Except Failure Reply)) :
    Except Failure e.Answer :=
  (e.dialogue s).result replies

/-- What came back at last. -/
def last? (s : Service) (e : Errand) (replies : List (Except Failure Reply)) :
    Option (Except Failure Reply) :=
  (e.exchanges s replies).getLast?.map Prod.snd

/-- A method that can ask: its path can be read, and its body and headers can be sent. -/
structure IsAskable (e : Errand) : Prop where
  sendable : e.IsSendable
  short : (pathOf e.parts).length ≤ maxLength
  printable : (pathOf e.parts).any isControl = false

theorem isSendable_of_isSome {e : Errand} (h : (e.request? s).isSome) : e.IsSendable := by
  cases e with
  | sendTemplate organization template address mergeFields fromName key =>
    obtain ⟨hheaders, hbody⟩ := sendable_of_first? h
    refine ⟨hbody _ rfl, fun k hk => ?_⟩
    obtain rfl : key = some k := hk
    by_cases hempty : k = ""
    · subst hempty
      rfl
    · simpa [hempty] using hheaders
  | _ => trivial

/-- A method makes a request if it can ask. -/
theorem isSome_request?_iff_isAskable (s : Service) (e : Errand) :
    (e.request? s).isSome ↔ e.IsAskable := by
  constructor
  · intro h
    have sendable := isSendable_of_isSome h
    obtain ⟨short, printable⟩ := (isSome_request?_iff s sendable).mp h
    exact ⟨sendable, short, printable⟩
  · exact fun h => (isSome_request?_iff s h.sendable).mpr ⟨h.short, h.printable⟩

/-- A method that asks no second time. -/
def IsSingle : Errand → Prop
  | .deliver .. => False
  | _ => True

theorem exchanges_of_request? {e : Errand} {q : Http.Request} (he : e.IsSingle)
    (h : e.request? s = some q) :
    e.exchanges s replies = [(q, replies.headD Dialogue.defaultReply)] := by
  cases e with
  | deliver => exact he.elim
  | endpointExists organization endpoint =>
    rw [request?, first?_endpointExists] at h
    exact (Dialogue.exchanges_andThen _ _ _).trans
      (congrArg (· ++ []) (exchanges_call_of_first? h))
  | _ => exact exchanges_call_of_first? h

/-- A service with a scheme answers a method that asks once. -/
theorem answers_of_isSingle {e : Errand} (he : e.IsSingle) (asks : e.IsAskable)
    (hs : IsScheme s.base.scheme) (reply : Reply) :
    ∀ x ∈ e.exchanges s [.ok reply], Answers x.1 x.2 := by
  obtain ⟨q, hq⟩ := Option.isSome_iff_exists.mp ((isSome_request?_iff_isAskable s e).mpr asks)
  have typed : q.url.hasType = true := by
    rw [url_of_request? hq]
    exact hasType_of_isScheme (by rwa [join_alone_scheme])
  rw [exchanges_of_request? he hq]
  exact fun x hx => List.mem_singleton.mp hx ▸ .reply reply typed

end Errand

/-! ## Deliveries -/

section Posting

/-- What the registry's reply tells of an endpoint. -/
def resolution (s : Service) : Option Reply → Except Failure (Option Members)
  | none => .ok none
  | some r => (s.object r).map some

/-- The registry cannot be asked, or it is asked once. -/
theorem resolve_cases {organization endpoint : String}
    (h : ∀ x ∈ (s.resolve organization endpoint).exchanges replies, Answers x.1 x.2) :
    (∃ kind m, s.resolve organization endpoint = .done (.error (.system kind m)))
    ∨ ∃ q verdict,
      (s.resolve organization endpoint).first? = some q
      ∧ (s.resolve organization endpoint).exchanges replies
          = [(q, replies.headD Dialogue.defaultReply)]
      ∧ Judged true (replies.headD Dialogue.defaultReply) verdict
      ∧ (s.resolve organization endpoint).answer replies
          = ([q], replies.tail, verdict.bind s.resolution) := by
  rcases call_cases h with
    ⟨kind, m, -, hcall⟩ | ⟨q, verdict, hrequest, hexchanges, judged, hanswer⟩
  · exact .inl ⟨kind, m, hcall⟩
  · refine .inr ⟨q.complete, verdict, ?_, hexchanges, judged, hanswer⟩
    rw [resolve, call_of_ok hrequest]
    rfl

variable {freshId fallback endpoint deliveryId timeout : String} {now : Int}
  {known : Option Members} {payload : Members} {f : Failure}

/-- What a delivery does once the registry has been asked. -/
def posting (freshId : String) (now : Int) (fallback endpoint : String) (payload : Members)
    (deliveryId timeout : String) : Except Failure (Option Members) → Dialogue Int
  | .error f => .done (.error f)
  | .ok known =>
    if !(Members.getD "url" (known.getD [])).isTruthy then
      .done (.error (.collaborator ("Webhook endpoint " ++ endpoint ++ " not found") false 404))
    else match deliveryRequest freshId now (known.getD []) fallback payload deliveryId with
      | .error f => .done (.error f)
      | .ok request => .exchange request (deliveryStatus endpoint timeout)

theorem deliver_eq (s : Service) (freshId : String) (now : Int)
    (fallback organization endpoint : String) (payload : Members) (deliveryId timeout : String) :
    s.deliver freshId now fallback organization endpoint payload deliveryId timeout
      = (s.resolve organization endpoint).andThen
        (posting freshId now fallback endpoint payload deliveryId timeout) := by
  rfl

/-- An endpoint without a URL is not posted to. -/
theorem posting_of_not_isTruthy (known : Option Members)
    (h : (Members.getD "url" (known.getD [])).isTruthy = false) :
    posting freshId now fallback endpoint payload deliveryId timeout (.ok known)
      = .done (.error
        (.collaborator ("Webhook endpoint " ++ endpoint ++ " not found") false 404)) := by
  simp [posting, h]

theorem posting_of_error (known : Option Members)
    (h : (Members.getD "url" (known.getD [])).isTruthy = true)
    (hrequest : deliveryRequest freshId now (known.getD []) fallback payload deliveryId
      = .error f) :
    posting freshId now fallback endpoint payload deliveryId timeout (.ok known)
      = .done (.error f) := by
  simp [posting, h, hrequest]

theorem posting_of_ok {q : Http.Request} (known : Option Members)
    (h : (Members.getD "url" (known.getD [])).isTruthy = true)
    (hrequest : deliveryRequest freshId now (known.getD []) fallback payload deliveryId = .ok q) :
    posting freshId now fallback endpoint payload deliveryId timeout (.ok known)
      = .exchange q (deliveryStatus endpoint timeout) := by
  simp [posting, h, hrequest]

end Posting

end Service

end CrmAutomation
