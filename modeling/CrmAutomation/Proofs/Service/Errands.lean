import CrmAutomation.Proofs.Http.Resources
import CrmAutomation.Proofs.Http.Sending
import CrmAutomation.Service.Messaging
import CrmAutomation.Service.Webhooks

/-!
# What the clients ask for

Every method of the clients begins with one request to its service, on a path that is made of the
words of a template and the ids it was given (`Errand.template`). The ids are written as they are,
so the request goes to the resource of these ids exactly if they are plain
(`Errand.addresses_iff_plain`): then other ids make another path, and the path lies within that of
the organization. An id that is not plain may leave it (`Errand.stray_tag_leaves_organization`).
-/

namespace CrmAutomation

/-! ## First requests -/

namespace Http

variable {α β : Type}

/-- The request that a dialogue begins with, if it makes one. -/
def Dialogue.first? : Dialogue α → Option Request
  | .done _ => none
  | .ask request _ => some request

theorem Dialogue.first?_andThen {d : Dialogue α} {f : Except Failure α → Dialogue β}
    (h : ∀ result, d = .done result → (f result).first? = none) :
    (d.andThen f).first? = d.first? := by
  cases d with
  | done result => exact h result rfl
  | ask request next => rfl

end Http

namespace Service

open Url

/-! ## Calls -/

theorem toList_organizationPath (organization rest : String) :
    (organizationPath organization rest).toList
      = pathOf ["organizations", organization] ++ '/' :: rest.toList := by
  change ("/organizations/" ++ organization ++ "/" ++ rest).toList = _
  simp [pathOf]

/-- A request has the method it is made for, and goes to the path, seen from the service. -/
theorem of_request {s : Service} {method path : String} {body : Option Value}
    {headers : List (String × String)} {r : Http.Request}
    (h : s.request method path body headers = .ok r) :
    r.method = method ∧ ∃ target, Url.read path = .ok target ∧ r.url = s.base.join target := by
  unfold request at h
  simp only [bind, Except.bind, pure, Except.pure, throw, throwThe, MonadExceptOf.throw] at h
  cases hread : Url.read path with
  | error f => simp [hread] at h
  | ok target =>
    simp only [hread] at h
    repeat' split at h
    all_goals first
      | exact Except.ok.inj h ▸ ⟨rfl, target, rfl, rfl⟩
      | cases h

/-- A call begins with a request on its path, seen from the service. -/
theorem exists_of_first?_call {α : Type} {s : Service} {method path : String} {body : Option Value}
    {headers : List (String × String)} {allowMissing : Bool}
    {read : Option Http.Reply → Except Failure α} {r : Http.Request} {parts : List String}
    (hpath : path.toList = pathOf parts)
    (h : (s.call method path body headers allowMissing read).first? = some r) :
    ∃ target, Url.read (String.ofList (pathOf parts)) = .ok target
      ∧ r.url = s.base.join target := by
  unfold call at h
  split at h
  · cases h
  · rename_i request hrequest
    rw [← Option.some.inj h, (Http.Request.keeps_complete request).url, ← hpath,
      String.ofList_toList]
    exact (of_request hrequest).2

/-- A call whose body and headers can be sent asks if its path can be read. -/
theorem isSome_first?_call {α : Type} {s : Service} {method path : String} {body : Option Value}
    {headers : List (String × String)} {allowMissing : Bool}
    {read : Option Http.Reply → Except Failure α} {parts : List String}
    (hpath : path.toList = pathOf parts) (hbody : ∀ v ∈ body, v.isFinite = true)
    (hheaders : headers.any (fun h => !isHeaderText h.2) = false) :
    (s.call method path body headers allowMissing read).first?.isSome
      ↔ ∃ target, Url.read (String.ofList (pathOf parts)) = .ok target := by
  rw [← hpath, String.ofList_toList, call, request]
  cases hread : Url.read path with
  | error f => simp [bind, Except.bind, Http.Dialogue.first?]
  | ok target =>
    cases body with
    | none =>
      simp [bind, Except.bind, pure, Except.pure, hheaders, Http.Dialogue.first?,
        Http.Dialogue.exchange]
    | some v =>
      simp [bind, Except.bind, pure, Except.pure, hheaders, hbody v rfl, Http.Dialogue.first?,
        Http.Dialogue.exchange]

/-- A call that asks nothing has failed. -/
theorem exists_error_of_call {α : Type} {s : Service} {method path : String} {body : Option Value}
    {headers : List (String × String)} {allowMissing : Bool}
    {read : Option Http.Reply → Except Failure α} {result : Except Failure α}
    (h : s.call method path body headers allowMissing read = .done result) :
    ∃ f, result = .error f := by
  unfold call at h
  split at h
  · exact ⟨_, (Http.Dialogue.done.inj h).symm⟩
  · cases h

theorem first?_endpointExists (s : Service) (organization endpoint : String) :
    (s.endpointExists organization endpoint).first? = (s.resolve organization endpoint).first? :=
  Http.Dialogue.first?_andThen fun _ _ => rfl

theorem first?_deliver (s : Service) (freshId : String) (now : Int)
    (fallbackSecret organization endpoint : String) (payload : Members)
    (deliveryId timeout : String) :
    (s.deliver freshId now fallbackSecret organization endpoint payload deliveryId timeout).first?
      = (s.resolve organization endpoint).first? := by
  refine Http.Dialogue.first?_andThen fun result hresult => ?_
  obtain ⟨f, rfl⟩ := exists_error_of_call hresult
  rfl

/-! ## Errands -/

/-- A part of a path: a word, which is always the same, or an id. -/
inductive Part where
  | word (text : String)
  | id (text : String)

def Part.text : Part → String
  | .word text => text
  | .id text => text

/-- A method of the clients with what it is given. -/
inductive Errand where
  | getContact (organization contact : String)
  | setStage (organization contact stage : String)
  | addTag (organization contact tag : String)
  | removeTag (organization contact tag : String)
  | stageExists (organization stage : String)
  | tagExists (organization tag : String)
  | templateExists (organization template : String)
  | sendTemplate (organization template address : String) (mergeFields : Members)
      (fromName : Value) (key : Option String)
  | endpointExists (organization endpoint : String)
  | deliver (freshId : String) (now : Int) (fallbackSecret organization endpoint : String)
      (payload : Members) (deliveryId timeout : String)

namespace Errand

/-- The request that a method begins with. -/
def request? (s : Service) : Errand → Option Http.Request
  | .getContact organization contact => (s.getContact organization contact).first?
  | .setStage organization contact stage => (s.setStage organization contact stage).first?
  | .addTag organization contact tag => (s.addTag organization contact tag).first?
  | .removeTag organization contact tag => (s.removeTag organization contact tag).first?
  | .stageExists organization stage => (s.stageExists organization stage).first?
  | .tagExists organization tag => (s.tagExists organization tag).first?
  | .templateExists organization template => (s.templateExists organization template).first?
  | .sendTemplate organization template address mergeFields fromName key =>
    (s.sendTemplate organization template address mergeFields fromName key).first?
  | .endpointExists organization endpoint => (s.endpointExists organization endpoint).first?
  | .deliver freshId now fallbackSecret organization endpoint payload deliveryId timeout =>
    (s.deliver freshId now fallbackSecret organization endpoint payload deliveryId timeout).first?

/-- The path of a method from the root of its service. -/
def template : Errand → List Part
  | .getContact organization contact =>
    [.word "organizations", .id organization, .word "contacts", .id contact]
  | .setStage organization contact _ =>
    [.word "organizations", .id organization, .word "contacts", .id contact, .word "stage"]
  | .addTag organization contact tag =>
    [.word "organizations", .id organization, .word "contacts", .id contact, .word "tags", .id tag]
  | .removeTag organization contact tag =>
    [.word "organizations", .id organization, .word "contacts", .id contact, .word "tags", .id tag]
  | .stageExists organization stage =>
    [.word "organizations", .id organization, .word "stages", .id stage]
  | .tagExists organization tag =>
    [.word "organizations", .id organization, .word "tags", .id tag]
  | .templateExists organization template =>
    [.word "organizations", .id organization, .word "templates", .id template]
  | .sendTemplate organization _ _ _ _ _ =>
    [.word "organizations", .id organization, .word "emails"]
  | .endpointExists organization endpoint =>
    [.word "organizations", .id organization, .word "endpoints", .id endpoint]
  | .deliver _ _ _ organization endpoint _ _ _ =>
    [.word "organizations", .id organization, .word "endpoints", .id endpoint]

/-- The words and ids on the path of a method. -/
def parts (e : Errand) : List String := e.template.map Part.text

/-- The ids that are given to a method to stand in a path are plain. -/
def Plain (e : Errand) : Prop := ∀ i, Part.id i ∈ e.template → IsPlain i

/-- A method begins with a request on its path, seen from the service. -/
theorem exists_of_request? {s : Service} {e : Errand} {r : Http.Request}
    (h : e.request? s = some r) :
    ∃ target, Url.read (String.ofList (pathOf e.parts)) = .ok target
      ∧ r.url = s.base.join target := by
  cases e <;> simp only [request?, first?_endpointExists, first?_deliver] at h <;>
    refine exists_of_first?_call ?_ h <;>
    simp [contactPath, toList_organizationPath, parts, template, pathOf, Part.text]

/-- The words of the paths. -/
def words : List String :=
  ["organizations", "contacts", "stage", "tags", "stages", "templates", "emails", "endpoints"]

theorem mem_words {e : Errand} {text : String} (h : Part.word text ∈ e.template) :
    text ∈ words := by
  cases e <;>
    simp only [template, List.mem_cons, Part.word.injEq, reduceCtorEq, List.not_mem_nil, false_or,
      or_false] at h <;>
    simp only [words, List.mem_cons, List.not_mem_nil] <;>
    tauto

theorem isPlain_of_mem_words : ∀ text ∈ words, IsPlain text := by decide

/-- The words of a path are plain, so that only its ids count. -/
theorem plain_iff (e : Errand) : e.Plain ↔ ∀ part ∈ e.parts, IsPlain part := by
  constructor
  · intro h part hpart
    obtain ⟨p, hp, rfl⟩ := List.mem_map.1 hpart
    cases p with
    | word text => exact isPlain_of_mem_words text (mem_words hp)
    | id text => exact h text hp
  · exact fun h i hi => h i (List.mem_map_of_mem hi)

/-- All paths lead to the organizations first. -/
theorem exists_pathOf_eq (e : Errand) : ∃ rest, pathOf e.parts = '/' :: 'o' :: rest := by
  cases e <;> exact ⟨_, rfl⟩

/-- The URL of a request, if its service has a base. -/
theorem url_of_request? {s : Service} {e : Errand} {r : Http.Request} (h : e.request? s = some r) :
    r.url = s.base.join (alone (pathOf e.parts)) := by
  obtain ⟨target, hread, hurl⟩ := exists_of_request? h
  obtain ⟨rest, hpath⟩ := e.exists_pathOf_eq
  rw [hpath] at hread ⊢
  rw [hurl, ((read_rooted_iff (by decide)).1 hread).2]

theorem isBase_of_configured {name address token : String} {s : Service}
    (hs : configured name address token = .ok s) (hplaced : s.base.host ≠ "")
    (hquery : s.base.query = none) (hfragment : s.base.fragment = none) : s.base.IsBase := by
  unfold configured at hs
  simp only [bind, Except.bind, pure, Except.pure, throw, throwThe, MonadExceptOf.throw] at hs
  split at hs
  · cases hs
  · rename_i u hread
    split at hs
    · cases hs
    · obtain rfl := Except.ok.inj hs
      exact isBase_of_asBase hread (asBase_host u ▸ hplaced) hquery hfragment

/-- A request addresses, segment by segment, the words and ids of its method exactly if the ids are
plain; and then no other ids address the same. -/
theorem addresses_iff_plain {name address token : String} {s : Service}
    (hs : configured name address token = .ok s) (hplaced : s.base.host ≠ "")
    (hquery : s.base.query = none) (hfragment : s.base.fragment = none)
    {e : Errand} {r : Http.Request} (h : e.request? s = some r) :
    ((segments r.url.path = s.base.stem ++ e.parts.map Bytes.ofText
        ∧ r.url.query = none ∧ r.url.fragment = none) ↔ e.Plain)
      ∧ ∀ {e' : Errand} {r' : Http.Request}, e'.request? s = some r' → e.Plain → e'.Plain →
        r'.url = r.url → e'.parts = e.parts := by
  have hb := isBase_of_configured hs hplaced hquery hfragment
  have addresses {e : Errand} {r : Http.Request} (h : e.request? s = some r) :
      (segments r.url.path = s.base.stem ++ e.parts.map Bytes.ofText
        ∧ r.url.query = none ∧ r.url.fragment = none) ↔ e.Plain := by
    obtain ⟨rest, hpath⟩ := e.exists_pathOf_eq
    rw [url_of_request? h, plain_iff]
    exact hb.addresses_iff hpath (by decide) (by decide)
  refine ⟨addresses h, fun {e' r'} h' hplain hplain' hurl => ?_⟩
  have hmine := ((addresses h).2 hplain).1
  have hother := ((addresses h').2 hplain').1
  rw [hurl, hmine] at hother
  exact map_ofText_injective (List.append_cancel_left hother).symm

theorem addresses_iff_plain_of_tag :
    ∃ s r, configured "pipeline" "http://svc/api" "" = .ok s
      ∧ (addTag "org-a" "c-1" "vip").request? s = some r
      ∧ segments r.url.path = s.base.stem
          ++ ["organizations", "org-a", "contacts", "c-1", "tags", "vip"].map Bytes.ofText := by
  have hs : configured "pipeline" "http://svc/api" "" = .ok ⟨"pipeline",
      ⟨"http", "", "svc", none, "/api/", none, none⟩, [("accept", "application/json")]⟩ := by
    with_unfolding_all rfl
  have hplain : (addTag "org-a" "c-1" "vip").Plain := (plain_iff _).2 (by decide)
  exact ⟨_, _, hs, rfl, ((addresses_iff_plain hs (by decide) rfl rfl rfl).1.2 hplain).1⟩

/-- A tag of one organization whose id climbs out of it addresses a tag of another one. -/
theorem stray_tag_leaves_organization :
    ∃ s r r', configured "pipeline" "http://svc" "" = .ok s
      ∧ (tagExists "org-a" "../../org-b/tags/vip").request? s = some r
      ∧ (tagExists "org-b" "vip").request? s = some r'
      ∧ r.url = r'.url ∧ r.url.path = "/organizations/org-b/tags/vip"
      ∧ segments r.url.path ≠ s.base.stem
          ++ ["organizations", "org-a", "tags", "../../org-b/tags/vip"].map Bytes.ofText := by
  refine ⟨⟨"pipeline", ⟨"http", "", "svc", none, "", none, none⟩, [("accept", "application/json")]⟩,
    _, _, by with_unfolding_all rfl, rfl, rfl, by decide +kernel, by decide +kernel,
    by decide +kernel⟩

/-- What a method puts into a body or a header of its own can be sent. -/
def IsSendable : Errand → Prop
  | .sendTemplate _ template address mergeFields fromName key =>
    (Value.obj [("template_id", .str template), ("to", .str address), ("from_name", fromName),
        ("merge_fields", .obj mergeFields)]).isFinite = true
      ∧ ∀ k ∈ key, isHeaderText k = true
  | _ => True

/-- A request is sent unless its path is too long or has a control character. -/
theorem isSome_request?_iff (s : Service) {e : Errand} (he : e.IsSendable) :
    (e.request? s).isSome ↔
      (pathOf e.parts).length ≤ maxLength ∧ (pathOf e.parts).any isControl = false := by
  have readable : (e.request? s).isSome
      ↔ ∃ target, Url.read (String.ofList (pathOf e.parts)) = .ok target := by
    cases e with
    | sendTemplate organization template address mergeFields fromName key =>
      obtain ⟨hbody, hkey⟩ := he
      refine isSome_first?_call ?_ (fun v hv => Option.some.inj hv ▸ hbody) ?_
      · simp [toList_organizationPath, parts, Errand.template, pathOf, Part.text]
      · cases key with
        | none => rfl
        | some k =>
          have := hkey k rfl
          by_cases hk : k = "" <;> simp [hk, this]
    | _ =>
      simp only [request?, first?_endpointExists, first?_deliver]
      refine isSome_first?_call ?_ ?_ rfl
      · simp [contactPath, toList_organizationPath, parts, template, pathOf, Part.text]
      · simp [Value.isFinite, Value.membersFinite]
  obtain ⟨rest, hpath⟩ := e.exists_pathOf_eq
  rw [readable, hpath]
  simp only [read_rooted_iff (show 'o' ≠ '/' by decide), exists_and_left, exists_eq, and_true]

end Errand

end Service

end CrmAutomation
