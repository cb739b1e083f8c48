import CrmAutomation.Api.Server
import CrmAutomation.Proofs.Engine.Ownership

/-!
# Tenants

Whatever an operator of an organization asks of the API, and whatever an event of the organization
sets off, happens within the organization (`Intake.handle_within_organization`): nobody else's rows
change, and nothing that comes of it depends on them.

Each endpoint does the same in worlds that are alike for the organization, by one lemma for each of
them, and so does what serves a request as a whole (`Api.same_serve`). With one world on both sides
this says what stays as it is, and with two worlds what makes no difference.
-/

namespace CrmAutomation

variable {σ α : Type}

/-! ## Operators -/

/-- Whom a token names is a matter of its claims, whatever the time is. -/
theorem Token.exists_of_verify_eq_ok {key token : String} {now : Instant} {i : Identity}
    (h : verify key now token = .ok i) :
    ∃ claims, signedClaims key token = .ok claims ∧ identity claims = .ok i := by
  unfold verify at h
  cases hclaims : signedClaims key token with
  | error e =>
    rw [hclaims] at h
    cases h
  | ok claims =>
    refine ⟨claims, rfl, ?_⟩
    simp only [hclaims, bind, Except.bind] at h
    split at h
    · cases h
    · split at h
      · cases h
      · split at h
        · cases h
        · cases hidentity : identity claims with
          | error e =>
            rw [hidentity] at h
            cases h
          | ok i' =>
            rw [hidentity] at h
            cases h
            rfl

namespace Api

/-- Whoever is known by the token of a request acts in the organization. -/
def ActsFor (s : Server σ) (o : String) (r : Http.Request) : Prop :=
  ∀ token now identity, bearerToken? (r.header? "authorization") = some token →
    Token.verify s.settings.secretKey now token = .ok identity → identity.organization = o

/-- A request that was accepted once comes from the organization in its token for good. -/
theorem actsFor_of_verify {s : Server σ} {r : Http.Request} {token : String} {now : Instant}
    {i : Identity} (given : bearerToken? (r.header? "authorization") = some token)
    (verified : Token.verify s.settings.secretKey now token = .ok i) :
    ActsFor s i.organization r := by
  intro token' later j given' verified'
  obtain rfl : token = token' := Option.some.inj (given.symm.trans given')
  obtain ⟨claims, hclaims, hi⟩ := Token.exists_of_verify_eq_ok verified
  obtain ⟨claims', hclaims', hj⟩ := Token.exists_of_verify_eq_ok verified'
  obtain rfl : claims = claims' := Except.ok.inj (hclaims.symm.trans hclaims')
  rw [Except.ok.inj (hi.symm.trans hj)]

/-- The token in a header, if there are no blanks around it. -/
theorem bearerToken?_bearer {token : String}
    (trimmed : Text.trimChars token.toList = token.toList) (given : token ≠ "") :
    bearerToken? (some ("Bearer " ++ token)) = some token := by
  have hchars : ("Bearer " ++ token).toList = "Bearer".toList ++ ' ' :: token.toList := by
    rw [String.toList_append]
    rfl
  have hscheme : ("Bearer".toList ++ ' ' :: token.toList).takeWhile (· != ' ') =
      "Bearer".toList := by
    rw [List.takeWhile_append_of_pos (List.all_eq_true.1 (by decide))]
    simp
  have hrest : ("Bearer".toList ++ ' ' :: token.toList).drop ("Bearer".toList.length + 1) =
      token.toList := by
    simp
  have hlower : Text.lower "Bearer" = "bearer" := by decide +kernel
  simp only [bearerToken?, bind, Option.bind, hchars, hscheme, hrest, String.ofList_toList, hlower,
    Text.trim, trimmed]
  simp [given]

/-! ## What is asked -/

section Requests

open Engine (Same same_ofExcept same_now same_look same_atomically)

variable {b : Border σ} {K : String → Prop} {s : Server σ} {r : Http.Request}
  (suits : b.Suits s.env.host) (acts : ActsFor s b.organization r)

include acts

theorem same_caller : Same b K (caller s r) fun answer =>
    ∀ identity, answer = .ok identity → identity.organization = b.organization := by
  unfold caller
  split
  · exact .pure nofun
  · rename_i token htoken
    refine .bind same_now fun now _ => ?_
    split
    · exact .pure nofun
    · exact .throw _
    · rename_i identity hverify
      split
      · refine .pure ?_
        rintro _ ⟨⟩
        exact acts token now identity htoken hverify
      · exact .pure nofun

theorem same_guarded {asked : Checked α} {act : Identity → α → Engine σ Response}
    (hact : ∀ user a, user.organization = b.organization → Same b K (act user a) fun _ => True) :
    Same b K (guarded s r asked act) fun _ => True := by
  refine .bind (same_caller acts) fun answer hanswer => ?_
  split
  · exact .pure trivial
  · rename_i user
    split
    · exact same_ofExcept _
    · exact hact user _ (hanswer user rfl)

theorem same_guardedBody {fields : Members → Checked α} {act : Identity → α → Engine σ Response}
    (hact : ∀ user a, user.organization = b.organization → Same b K (act user a) fun _ => True) :
    Same b K (guardedBody s r fields act) fun _ => True := by
  unfold guardedBody
  split
  · exact same_ofExcept _
  · exact same_guarded acts hact

omit acts in
theorem same_showChange (status : Int) {change : Engine σ Definition}
    (hchange : Same b K change fun _ => True) :
    Same b K (showChange status change) fun _ => True :=
  same_atomically (.bind hchange fun _ _ =>
    .bind (same_ofExcept _) fun _ _ => .pure trivial)

/-! ## Workflows -/

theorem same_listWorkflows (q : Http.Query) :
    Same b K (listWorkflows s r q) fun _ => True := by
  refine same_guarded acts fun user (page, perPage) own => ?_
  refine .bind (same_ofExcept _) fun offset _ =>
    .get fun w v h => ?_
  rw [own, h.db.query (q := fun db => db.listLatest b.organization offset perPage)
    (h.db.left.listLatest_ownedBy ..) (h.db.right.listLatest_ownedBy ..)]
  rcases v.db.listLatest b.organization offset perPage with ⟨rows, total⟩
  exact Same.bind (same_ofExcept _) (fun _ _ => .pure trivial) w v h

theorem same_showWorkflow (workflow : String) :
    Same b K (showWorkflow s r workflow) fun _ => True := by
  refine same_guarded acts fun user _ own => .get fun w v h => ?_
  rw [own, h.db.query (q := fun db => db.versions workflow b.organization)
    (Database.versions_ownedBy ..) (Database.versions_ownedBy ..)]
  split
  · exact Same.throw _ w v h
  · exact Same.bind (same_ofExcept _) (fun _ _ => .pure trivial)
      w v h

theorem same_archiveWorkflow (workflow : String) :
    Same b K (archiveWorkflow s r workflow) fun _ => True :=
  same_guarded acts fun _ _ own => same_showChange _ (own ▸ Engine.same_archive workflow)

/-! ## Runs -/

theorem same_listRuns (q : Http.Query) : Same b K (listRuns s r q) fun _ => True := by
  refine same_guarded acts fun user ((page, perPage), state) own => ?_
  refine .bind (same_ofExcept _) fun offset _ =>
    .get fun w v h => ?_
  have heq : ∀ filter, w.db.listRuns b.organization filter offset perPage =
      v.db.listRuns b.organization filter offset perPage := fun filter =>
    h.db.query (q := fun db => db.listRuns b.organization filter offset perPage)
      (Database.listRuns_ownedBy ..) (Database.listRuns_ownedBy ..)
  rw [own, heq]
  exact Same.pure trivial w v h

theorem same_contactHistory (q : Http.Query) :
    Same b K (contactHistory s r q) fun _ => True := by
  refine same_guarded acts fun user (contact, limit) own => .get fun w v h => ?_
  rw [own, h.db.query (q := fun db => db.contactHistory b.organization contact limit)
    (Database.contactHistory_ownedBy ..) (Database.contactHistory_ownedBy ..)]
  exact Same.bind (same_ofExcept _) (fun _ _ => .pure trivial) w v h

omit acts in
/-- The run of the organization with an id, if it has one. -/
theorem runOf_eq {w v : World σ} (h : World.Alike b K w v) (id : String) :
    w.db.runOf b.organization id = v.db.runOf b.organization id ∧
      ∀ run, w.db.runOf b.organization id = .ok run → w.db.HasRun b.organization run.id := by
  refine ⟨h.db.query (q := fun db => db.runOf b.organization id) (Database.runOf_ownedBy ..)
    (Database.runOf_ownedBy ..), fun run hrun => ?_⟩
  simp only [Database.runOf] at hrun
  split at hrun
  · rename_i found hfound
    cases hrun
    have hspec := List.find?_some hfound
    rw [Bool.and_eq_true, beq_iff_eq, beq_iff_eq] at hspec
    exact Database.hasRun_of_mem (List.mem_of_find?_eq_some hfound) hspec.2
  · cases hrun

theorem same_showRun (id : String) : Same b K (showRun s r id) fun _ => True := by
  refine same_guarded acts fun user _ own => .get fun w v h => ?_
  obtain ⟨heq, hfound⟩ := runOf_eq h id
  dsimp only
  rw [own, ← heq]
  cases hrun : w.db.runOf b.organization id with
  | error f => exact Same.throw f w v h
  | ok run =>
    have known := hfound run hrun
    have known' : v.db.HasRun b.organization run.id := by
      obtain ⟨a, ha, hid⟩ := known
      exact ⟨a, h.db.owned_eq ▸ ha, hid⟩
    have hhistory := h.db.query (q := fun db => db.history run.id) known.history_ownedBy
      known'.history_ownedBy
    have hview : ∀ history, Same (σ := σ) b K (do
        return Response.json 200 (← Engine.ofExcept (runDetail run history))) fun _ => True :=
      fun _ => .bind (same_ofExcept _) fun _ _ => .pure trivial
    have hshown := hview (w.db.history run.id) w v h
    nth_rewrite 2 [hhistory] at hshown
    exact hshown

include suits

theorem same_cancelRun (id : String) : Same b K (cancelRun s r id) fun _ => True := by
  refine same_guarded acts fun user _ own => .get fun w v h => ?_
  obtain ⟨heq, hfound⟩ := runOf_eq h id
  rw [own, ← heq]
  cases hrun : w.db.runOf b.organization id with
  | error f => exact Same.throw f w v h
  | ok run =>
    have lacks := h.db.left.own_of_hasRun (hfound run hrun)
    refine Same.bind (.pure (Q := fun a => b.others.LacksRun a.id) lacks) (fun run lacks => ?_)
      w v h
    refine .bind (Engine.same_cancel suits lacks) fun done _ => ?_
    split
    · refine .get fun w v h => ?_
      rw [h.db.query (q := fun db => db.run? run.id) (h.db.left.run?_ownedBy lacks)
        (h.db.right.run?_ownedBy lacks)]
      exact Same.pure trivial w v h
    · exact .throw _

theorem same_takeEvent : Same b K (takeEvent s r) fun _ => True := by
  refine same_guardedBody acts fun user (type, contact, payload, given) own => ?_
  refine .bind (Engine.same_freshId suits .event) fun fresh _ => .bind same_now fun time _ => ?_
  exact .bind (Engine.same_handleEvent suits own) fun _ _ => .pure trivial

theorem same_createWorkflow : Same b K (createWorkflow s r) fun _ => True :=
  same_guardedBody acts fun _ _ own =>
    same_showChange _ (own ▸ Engine.same_createWorkflow suits _ _ _ _)

theorem same_saveGraph (workflow : String) : Same b K (saveGraph s r workflow) fun _ => True :=
  same_guardedBody acts fun _ _ own => same_showChange _ (own ▸ Engine.same_saveDraft suits _ _)

theorem same_validateWorkflow (workflow : String) :
    Same b K (validateWorkflow s r workflow) fun _ => True := by
  refine same_guarded acts fun user _ own => ?_
  rw [own]
  exact .bind (Engine.same_latest workflow) fun d _ =>
    .bind (Engine.same_validate suits d.graph) fun _ _ => .pure trivial

theorem same_publishWorkflow (workflow : String) :
    Same b K (publishWorkflow s r workflow) fun _ => True :=
  same_guarded acts fun _ _ own => same_showChange _ (own ▸ Engine.same_publish suits workflow)

omit suits acts in
theorem same_publishedVersion (workflow : String) :
    Same (σ := σ) b K (publishedVersion workflow b.organization)
      fun d => d.Own b.others b.organization := by
  refine .get fun w v h => ?_
  rw [← h.db.query (q := fun db => db.published? workflow b.organization)
    (Database.published?_ownedBy ..) (Database.published?_ownedBy ..)]
  split
  · rename_i d hd
    exact Same.pure (h.db.left.own_of_published? hd) w v h
  · exact Same.throw _ w v h

theorem same_startWorkflow (workflow : String) :
    Same b K (startWorkflow s r workflow) fun _ => True := by
  refine same_guardedBody acts fun user (contact, payload) own => ?_
  rw [own]
  refine .bind (same_publishedVersion workflow) fun d hd => ?_
  refine .bind (Engine.same_startManually suits hd contact _) fun started hstarted => ?_
  split
  · exact .throw _
  · rename_i o
    exact .bind (same_look suits .getRun (Q := fun _ => True) fun _ _ h =>
      ⟨h.query (q := fun db => db.run? o.run) (h.left.run?_ownedBy (hstarted o rfl))
        (h.right.run?_ownedBy (hstarted o rfl)), trivial⟩) fun _ _ => .pure trivial

/-! ## Responses -/

theorem same_operate (q : Http.Query) (e : Endpoint) :
    Same b K (operate s r q e) fun _ => True := by
  cases e with
  | health | readiness => exact .pure trivial
  | listWorkflows => exact same_listWorkflows acts q
  | createWorkflow => exact same_createWorkflow suits acts
  | showWorkflow workflow => exact same_showWorkflow acts workflow
  | saveGraph workflow => exact same_saveGraph suits acts workflow
  | validateWorkflow workflow => exact same_validateWorkflow suits acts workflow
  | publishWorkflow workflow => exact same_publishWorkflow suits acts workflow
  | archiveWorkflow workflow => exact same_archiveWorkflow acts workflow
  | startWorkflow workflow => exact same_startWorkflow suits acts workflow
  | listRuns => exact same_listRuns acts q
  | contactHistory => exact same_contactHistory acts q
  | showRun run => exact same_showRun acts run
  | cancelRun run => exact same_cancelRun suits acts run
  | takeEvent => exact same_takeEvent suits acts

theorem same_dispatch : Same b K (dispatch s r) fun _ => True := by
  unfold dispatch
  dsimp only
  split
  · exact .pure trivial
  · exact .pure trivial
  · exact .pure trivial
  · exact same_operate suits acts _ _

theorem same_track : Same b K (track s r) fun _ => True := by
  refine .bind (Engine.same_freshId suits .request) fun fresh _ => ?_
  refine .bind (same_dispatch suits acts).attempt fun answer _ => ?_
  cases answer with
  | ok response => exact .bind (.pure (Q := fun _ => True) trivial) fun _ _ => .pure trivial
  | error f => exact .bind (.pure (Q := fun _ => True) trivial) fun _ _ => .pure trivial

/-- A request that comes from the organization. -/
theorem same_serve : Same b K (serve s r) fun _ => True := by
  unfold serve
  split
  · exact same_track suits acts
  · split
    · exact .pure trivial
    · exact .bind (same_track suits acts) fun _ _ => .pure trivial

end Requests

end Api

/-! ## Intakes -/

/-- What reaches the process from outside for an organization. -/
inductive Intake where
  | request (r : Http.Request)
  | event (e : Event)

namespace Intake

/-- What an intake is answered with, when all that follows from it is done. -/
def handle (s : Api.Server σ) : Intake → Engine σ (Api.Response ⊕ MatchResult)
  | request r => return .inl (← Api.serve s r)
  | event e => return .inr (← Engine.handleEvent s.env e)

/-- The intake is one of the organization. -/
def IsOf (s : Api.Server σ) (o : String) : Intake → Prop
  | request r => Api.ActsFor s o r
  | event e => e.organization = o

variable {s : Api.Server σ} {x : Intake}

theorem same_handle {b : Border σ} {K : String → Prop} (suits : b.Suits s.env.host)
    (own : x.IsOf s b.organization) : Engine.Same b K (x.handle s) fun _ => True := by
  cases x with
  | request r => exact .bind (Api.same_serve suits own) fun _ _ => .pure trivial
  | event e => exact .bind (Engine.same_handleEvent suits own) fun _ _ => .pure trivial

/-- An intake of an organization changes no row of any other, and services are called for the
organization only. What comes of it, what it changes and what it asks for depend on nothing that
others have: they are the same wherever the organization has the same rows, the clock and the names
that are made up are the same, and the services answer the same for the organization. -/
theorem handle_within_organization {o : String} {w : World σ} {S : σ → Prop}
    (reached : w.Reached) (own : x.IsOf s o) (state : S w.host)
    (named : ∀ id, s.env.host.NamesDefinition id → ':' ∉ id.toList)
    (keeps : s.env.host.KeepsOff S o (w.db.besides o)) :
    ((x.handle s).run w).2.db.besides o = w.db.besides o ∧
    (∃ made, ((x.handle s).run w).2.calls = w.calls ++ made ∧
      ∀ call ∈ made, call.organization? = some o) ∧
    ∀ v : World σ, v.Reached → w.Agree o v → s.env.host.KeepsOff S o (v.db.besides o) →
      s.env.host.Respects o (fun d e => d.ownedBy o = e.ownedBy o) →
        ((x.handle s).run w).1 = ((x.handle s).run v).1 ∧
        World.Agree o ((x.handle s).run w).2 ((x.handle s).run v).2 ∧
        ∃ made, ((x.handle s).run w).2.calls = w.calls ++ made ∧
          ((x.handle s).run v).2.calls = v.calls ++ made := by
  have refl : w.Agree o w := ⟨rfl, fun _ _ => rfl, rfl, rfl⟩
  have alone := same_handle (K := fun _ => False) (b := World.border o True S w w)
    ⟨⟨fun kind d e s h => by rw [h.2 trivial], fun call d e s h => by rw [h.2 trivial],
      fun call d e s _ h => by rw [h.2 trivial], fun delay d e s h => by rw [h.2 trivial]⟩,
      keeps, keeps, named⟩ own w w (refl.alike reached.tidy reached.tidy (fun _ => rfl) state)
  obtain ⟨made, hmade, -, hown⟩ := alone.alike.asked
  refine ⟨alone.alike.db.left.besides_eq, ⟨made, hmade, hown⟩, fun v hv agree keeps' respects => ?_⟩
  have both := same_handle (K := fun _ => False) (b := World.border o False S w v)
    ⟨⟨fun kind d e s h => respects.freshId kind d e s h.1,
      fun call d e s h => respects.storage call d e s h.1,
      fun call d e s hcall h => respects.service call d e s hcall h.1,
      fun delay d e s h => respects.wait delay d e s h.1⟩, keeps, keeps', named⟩ own w v
      (agree.alike reached.tidy hv.tidy False.elim state)
  obtain ⟨made, hmade, hmade', -⟩ := both.alike.asked
  exact ⟨both.result, both.alike.agree, made, hmade, hmade'⟩

end Intake

/-! ## Two neighbours -/

/-- Nothing fails, tags are there, and what is made up begins with a name. -/
def naming (name : String) : Environment Unit :=
  { Engine.careful with
    host := { Engine.careful.host with
      freshId := fun kind _ _ => match kind with
        | .run => (name ++ "-run", ())
        | .definition .. => (name ++ "-1", ())
        | _ => (name, ()) } }

theorem keepsOff_naming {name o : String} {rest : Database}
    (workflow : rest.LacksWorkflow name) (definition : rest.LacksDefinition (name ++ "-1"))
    (run : rest.LacksRun (name ++ "-run")) (trail : rest.LacksTrail (name ++ "-run")) :
    (naming name).host.KeepsOff (fun _ => True) o rest where
  freshId kind _ _ _ _ := by
    cases kind with
    | workflow => exact ⟨workflow, trivial⟩
    | definition => exact ⟨definition, trivial⟩
    | run => exact ⟨⟨run, trail⟩, trivial⟩
    | event | request => exact ⟨trivial, trivial⟩
  draw _ _ := trivial
  storage _ _ _ _ _ := ⟨by nofun, trivial⟩
  service call _ _ _ _ := by
    cases call <;> exact ⟨by nofun, trivial⟩
  wait _ _ _ _ _ := ⟨by nofun, trivial⟩

theorem respects_naming (name o : String) (R : Database → Database → Prop) :
    (naming name).host.Respects o R where
  freshId kind _ _ _ _ := by cases kind <;> rfl
  storage _ _ _ _ _ := rfl
  service _ _ _ _ _ _ := rfl
  wait _ _ _ _ _ := rfl

theorem named_naming {name : String} (h : ':' ∉ (name ++ "-1").toList) :
    ∀ id, (naming name).host.NamesDefinition id → ':' ∉ id.toList := by
  rintro _ ⟨workflow, version, db, s, rfl⟩
  exact h

/-- A workflow on `Engine.pause` is created and published for an organization. -/
def announcing (name organization : String) (w : World Unit) : World Unit :=
  (Request.publish name organization).perform (naming name)
    ((Request.create organization "Pause" "" Engine.pause none).perform (naming name) w)

theorem reached_announcing {name o : String} {w : World Unit} (h : w.Reached)
    (named : ∀ id, (naming name).host.NamesDefinition id → ':' ∉ id.toList) :
    (announcing name o w).Reached :=
  .serve (.serve h _ named _) _ named _

theorem alike_announcing {b : Border Unit} {K : String → Prop} {name : String} {w v : World Unit}
    (suits : b.Suits (naming name).host) (h : World.Alike b K w v) :
    World.Alike b K (announcing name b.organization w) (announcing name b.organization v) :=
  (Engine.same_publish suits name _ _
    (Engine.same_createWorkflow suits "Pause" "" Engine.pause none _ _ h).alike).alike

/-- The world in which a contact of one organization waits. -/
def neighbouring : World Unit :=
  (Request.operate (.event { Engine.tagging "c-1" with organization := "o-2" })).perform
    (naming "theirs") (announcing "theirs" "o-2" Engine.blank)

/-- A world without tables at the same time. -/
def vacant (w : World Unit) : World Unit := { Engine.blank with clock := w.clock }

theorem keepsOff_vacant (name o : String) (w : World Unit) :
    (naming name).host.KeepsOff (fun _ => True) o ((vacant w).db.besides o) :=
  have lacks {β : Type} {p : β → Prop} : ∀ a ∈ ([] : List β), p a := by simp
  keepsOff_naming lacks lacks lacks lacks

theorem agree_vacant {w : World Unit} {o : String} (definitions : (w.db.ownedBy o).definitions = [])
    (runs : (w.db.ownedBy o).runs = []) (records : (w.db.ownedBy o).records = []) :
    w.Agree o (vacant w) := by
  refine ⟨?_, by rw [definitions]; nofun, rfl, rfl⟩
  change w.db.ownedBy o = ⟨[], [], []⟩
  rw [← definitions, ← runs, ← records]

/-- Another organization has published a workflow. -/
def shared : World Unit := announcing "mine" "o-1" neighbouring

/-- It has done so without neighbours. -/
def unshared : World Unit := announcing "mine" "o-1" (vacant neighbouring)

/-- What serves that organization. -/
def counter : Api.Server Unit where
  env := naming "mine"
  settings := { secretKey := "a-secret-of-thirty-two-characters" }
  databaseReachable := true

/-- A token of an operator of that organization. -/
def pass : String :=
  "eyJhbGciOiJIUzI1NiIsInR5cCI6IkpXVCJ9." ++
  "eyJzdWIiOiJ1LTEiLCJlbWFpbCI6InVAby0xIiwib3JnX2lkIjoiby0xIiwidHlwZSI6ImFjY2VzcyIsImlhdCI6LTYy" ++
  "MTM1NTk2ODAwLCJleHAiOi02MjEzNTUxMDQwMH0." ++
  "b-77l6oNEdnpbA1Ao8oA1LdQ30DzXvYdvFkKIhrAJ0U"

/-- The operator tells that a contact was given the tag. -/
def report : Http.Request where
  method := "POST"
  url := ⟨"http", "", "crm", none, "/api/v1/events/", none, none⟩
  headers := [("authorization", "Bearer " ++ pass)]
  body := some (Json.write .compact (.obj [("type", .str "tag_added"), ("subject_id", .str "c-1"),
    ("payload", .obj [("tagId", .str "vip")])]))

theorem actsFor_report : Api.ActsFor counter "o-1" report := by
  have given : Api.bearerToken? (report.header? "authorization") = some pass :=
    Api.bearerToken?_bearer (by decide +kernel) (by decide +kernel)
  have verified : (Token.verify counter.settings.secretKey ⟨1⟩ pass).toOption.map
      (·.organization) = some "o-1" := by decide +kernel
  cases hverify : Token.verify counter.settings.secretKey ⟨1⟩ pass with
  | error e =>
    rw [hverify] at verified
    cases verified
  | ok i =>
    rw [hverify] at verified
    exact Option.some.inj verified ▸ Api.actsFor_of_verify given hverify

/-- The operator's request is answered as if there were no neighbour, and the neighbour's rows stay
as they are; so do they when the event itself comes in, which begins a run. -/
theorem Intake.handle_within_organization_of_neighbours :
    shared.Reached ∧ unshared.Reached ∧ shared.Agree "o-1" unshared ∧
    shared.db.runs.map (·.organization) = ["o-2"] ∧ unshared.db.runs.map (·.organization) = [] ∧
    (((Intake.request report).handle counter).run shared).2.db.besides "o-1" =
      shared.db.besides "o-1" ∧
    (((Intake.request report).handle counter).run shared).1 =
      (((Intake.request report).handle counter).run unshared).1 ∧
    (((Intake.event (Engine.tagging "c-1")).handle counter).run shared).2.db.besides "o-1" =
      shared.db.besides "o-1" ∧
    (((Intake.event (Engine.tagging "c-1")).handle counter).run shared).2.db.runs.map
      (fun r => (r.organization, r.definition, r.node)) =
        [("o-2", "theirs-1", "wait"), ("o-1", "mine-1", "wait")] := by
  have theirs : ∀ id, (naming "theirs").host.NamesDefinition id → ':' ∉ id.toList :=
    named_naming (by decide)
  have mine : ∀ id, (naming "mine").host.NamesDefinition id → ':' ∉ id.toList :=
    named_naming (by decide)
  have hneighbouring : neighbouring.Reached :=
    .serve (reached_announcing (.empty rfl rfl) theirs) _ theirs _
  have hvacant : (vacant neighbouring).Reached := .empty rfl rfl
  have agree : neighbouring.Agree "o-1" (vacant neighbouring) := by
    have hlists : (neighbouring.db.ownedBy "o-1").definitions.isEmpty ∧
        (neighbouring.db.ownedBy "o-1").runs.isEmpty ∧
        (neighbouring.db.ownedBy "o-1").records.isEmpty := by decide +kernel
    simp only [List.isEmpty_iff] at hlists
    exact agree_vacant hlists.1 hlists.2.1 hlists.2.2
  have keeps : (naming "mine").host.KeepsOff (fun _ => True) "o-1"
      (neighbouring.db.besides "o-1") := by
    have hrest : (∀ d ∈ (neighbouring.db.besides "o-1").definitions,
          d.workflow ≠ "mine" ∧ d.id ≠ "mine-1") ∧
        (∀ r ∈ (neighbouring.db.besides "o-1").runs, r.id ≠ "mine-run") ∧
        ∀ r ∈ (neighbouring.db.besides "o-1").records, r.run ≠ "mine-run" := by decide +kernel
    exact keepsOff_naming (fun d hd => (hrest.1 d hd).1) (fun d hd => (hrest.1 d hd).2) hrest.2.1
      hrest.2.2
  have keeps' := keepsOff_vacant "mine" "o-1" neighbouring
  have alike : World.Alike
      (World.border "o-1" False (fun _ => True) neighbouring (vacant neighbouring)) (fun _ => False)
      shared unshared :=
    alike_announcing ⟨respects_naming .., keeps, keeps', mine⟩
      (agree.alike hneighbouring.tidy hvacant.tidy False.elim trivial)
  have hshared : shared.Reached := reached_announcing hneighbouring mine
  have hunshared : unshared.Reached := reached_announcing hvacant mine
  have hagree : shared.Agree "o-1" unshared := alike.agree
  have hbesides : shared.db.besides "o-1" = neighbouring.db.besides "o-1" :=
    alike.db.left.besides_eq
  have hbesides' : unshared.db.besides "o-1" = (vacant neighbouring).db.besides "o-1" :=
    alike.db.right.besides_eq
  obtain ⟨hasked, -, htwo⟩ := handle_within_organization (x := .request report) (s := counter)
    (S := fun _ => True) hshared actsFor_report trivial mine (hbesides ▸ keeps)
  obtain ⟨hsame, -⟩ := htwo unshared hunshared hagree (hbesides' ▸ keeps') (respects_naming ..)
  obtain ⟨hheard, -⟩ := handle_within_organization (x := .event (Engine.tagging "c-1"))
    (s := counter) (S := fun _ => True) hshared (by exact rfl) trivial mine (hbesides ▸ keeps)
  exact ⟨hshared, hunshared, hagree, by decide +kernel, by decide +kernel, hasked, hsame, hheard,
    by decide +kernel⟩

end CrmAutomation
