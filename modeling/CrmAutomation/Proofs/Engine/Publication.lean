import CrmAutomation.Proofs.Engine.Asking
import CrmAutomation.Proofs.Engine.Requests
import CrmAutomation.Proofs.Store.Versions

/-!
# Publishing a workflow

What comes of an attempt to publish a workflow, whatever the services answer. There is one question
for everything that the graph refers to (`Graph.Reference.question`), all of them are asked one
after the other, failing or not (`Engine.lookUps`), and each answer but a yes is a defect
(`Engine.run_referenceDefects`). `Engine.Releasable` says what it takes to publish a draft, and
`Engine.Refusal` lists the failures. The attempt ends in one of these (`Engine.publication`), as long
as the table of definitions is in order.
-/

namespace CrmAutomation

variable {σ : Type}

/-! ## Questions and answers -/

namespace Graph.Reference

/-- What a service is asked about a reference. -/
def question (organization : String) (r : Reference) : ServiceCall :=
  match r.kind with
  | .stage => .stageExists organization r.id
  | .tag => .tagExists organization r.id
  | .template => .templateExists organization r.id
  | .endpoint => .endpointExists organization r.id

/-- The defect that an answer shows, unless the answer is that the reference exists. -/
def defect? (r : Reference) : Except Failure Bool → Option Defect
  | .ok true => none
  | .ok false => some (.unknownReference r.node r.kind r.id)
  | .error f => some (.unverifiedReference r.node r.kind r.id f.text)

/-- The defects that the answers show, in the order of the references. -/
def defects (references : List Reference) (answers : List (Except Failure Bool)) : List Defect :=
  (references.zip answers).filterMap fun p => p.1.defect? p.2

theorem defect?_eq_none_iff {r : Reference} {answer : Except Failure Bool} :
    r.defect? answer = none ↔ answer = .ok true := by
  rcases answer with f | _ | _ <;> simp [defect?]

theorem defects_cons (r : Reference) (answer : Except Failure Bool) (rs : List Reference)
    (answers : List (Except Failure Bool)) :
    defects (r :: rs) (answer :: answers) = (r.defect? answer).toList ++ defects rs answers := by
  rw [defects, List.zip_cons_cons, List.filterMap_cons]
  cases r.defect? answer <;> rfl

/-- There is no defect just when every answer is that the reference exists. -/
theorem defects_eq_nil_iff {references : List Reference} {answers : List (Except Failure Bool)}
    (h : answers.length = references.length) :
    defects references answers = [] ↔ ∀ a ∈ answers, a = .ok true := by
  induction references generalizing answers with
  | nil => simp [defects, List.length_eq_zero_iff.1 h]
  | cons r rs ih =>
    obtain ⟨answer, answers, rfl⟩ := List.exists_cons_of_length_eq_add_one h
    rw [defects_cons, List.append_eq_nil_iff, Option.toList_eq_nil_iff, defect?_eq_none_iff,
      ih (Nat.succ.inj h), List.forall_mem_cons]

end Graph.Reference

namespace Engine

variable {env : Environment σ} {organization workflow : String}

/-- The answers about what a graph refers to. A service that fails has not confirmed anything, and
the next one is asked all the same. -/
def lookUps (env : Environment σ) (organization : String) :
    List Graph.Reference → StateM (World σ) (List (Except Failure Bool))
  | [] => return []
  | r :: rs => do
    let answer ← (referenceExists env organization r).run
    return answer :: (← lookUps env organization rs)

theorem run_lookUps_cons (r : Graph.Reference) (rs : List Graph.Reference) (w : World σ) :
    (lookUps env organization (r :: rs)).run w =
      (((referenceExists env organization r).run w).1 ::
          ((lookUps env organization rs).run ((referenceExists env organization r).run w).2).1,
        ((lookUps env organization rs).run ((referenceExists env organization r).run w).2).2) :=
  rfl

theorem length_lookUps (env : Environment σ) (organization : String) (rs : List Graph.Reference)
    (w : World σ) :
    ((lookUps env organization rs).run w).1.length = rs.length := by
  induction rs generalizing w with
  | nil => rfl
  | cons r rs ih => simp only [run_lookUps_cons, List.length_cons, ih]

/-- The defects of references are those that the answers show. -/
theorem run_referenceDefects (rs : List Graph.Reference) (w : World σ) :
    (referenceDefects env organization rs).run w =
      (.ok (Graph.Reference.defects rs ((lookUps env organization rs).run w).1),
        ((lookUps env organization rs).run w).2) := by
  induction rs generalizing w with
  | nil => rfl
  | cons r rs ih =>
    have hrun : (referenceDefects env organization (r :: rs)).run w =
        (referenceDefects env organization rs >>= fun others =>
          match ((referenceExists env organization r).run w).1 with
          | .ok true => return others
          | .ok false => return .unknownReference r.node r.kind r.id :: others
          | .error f => return .unverifiedReference r.node r.kind r.id f.text :: others).run
            ((referenceExists env organization r).run w).2 := rfl
    rw [hrun, run_bind, ih, run_lookUps_cons, Graph.Reference.defects_cons]
    rcases ((referenceExists env organization r).run w).1 with f | _ | _ <;> rfl

/-- A question is asked, and others may cancel runs meanwhile. -/
theorem run_demand (env : Environment σ) (call : ServiceCall) (w : World σ) :
    w.db.Concedes ((demand env call).run w).2.db ∧
      ((demand env call).run w).2.calls = w.calls ++ [call] := by
  have hasks : Asks (· = [call]) (demand env call) := asks_demand call
  obtain ⟨made, hcalls, rfl⟩ := hasks w
  have hdoes : Does env .asking (demand env call) := does_demand call
  have hkeep := (hdoes.path w).keep (I := fun v => w.db.Concedes v.db)
    (fun a b hdeed ha => ha.trans (hdeed.concedes (fun _ => False.elim) False.elim)) (.refl _)
  exact ⟨hkeep, hcalls⟩

theorem run_referenceExists (env : Environment σ) (organization : String) (r : Graph.Reference)
    (w : World σ) :
    w.db.Concedes ((referenceExists env organization r).run w).2.db ∧
      ((referenceExists env organization r).run w).2.calls =
        w.calls ++ [r.question organization] := by
  obtain ⟨node, kind, id⟩ := r
  cases kind <;> exact run_demand env _ w

/-- Everything is asked about, in order, and nothing is changed by that. -/
theorem run_lookUps (env : Environment σ) (organization : String) (rs : List Graph.Reference)
    (w : World σ) :
    w.db.Concedes ((lookUps env organization rs).run w).2.db ∧
      ((lookUps env organization rs).run w).2.calls =
        w.calls ++ rs.map (·.question organization) := by
  induction rs generalizing w with
  | nil => exact ⟨.refl _, (List.append_nil _).symm⟩
  | cons r rs ih =>
    obtain ⟨hdb, hcalls⟩ := run_referenceExists env organization r w
    obtain ⟨hdb', hcalls'⟩ := ih ((referenceExists env organization r).run w).2
    rw [run_lookUps_cons]
    refine ⟨hdb.trans hdb', hcalls'.trans ?_⟩
    rw [hcalls, List.append_assoc, List.map_cons, List.singleton_append]

/-! ## Validating -/

/-- A graph without structural defects has those of what it refers to. -/
theorem run_validate_of_sound {raw : Value} {g : Graph} (sound : checkStructure raw = ⟨[], some g⟩)
    (w : World σ) : (validate env raw organization).run w =
      (.ok ⟨Graph.Reference.defects g.references
        ((lookUps env organization g.references).run w).1, some g⟩,
        ((lookUps env organization g.references).run w).2) := by
  unfold validate
  rw [sound]
  dsimp only
  rw [run_bind, run_referenceDefects]
  rfl

/-- A graph with structural defects has only these, and nothing is asked about it. -/
theorem run_validate_of_unsound {raw : Value} (unsound : ¬(checkStructure raw).isOk)
    (w : World σ) : (validate env raw organization).run w = (.ok (checkStructure raw), w) := by
  unfold validate
  split
  · rename_i sound
    exact absurd (isOk_of_checkStructure sound) unsound
  · rfl

/-! ## Publishing -/

/-- The definition is the last version that the organization has of the workflow. -/
structure IsLatest (db : Database) (workflow organization : String) (d : Definition) : Prop where
  newest : Newest db.definitions d
  workflow_eq : d.workflow = workflow
  organization_eq : d.organization = organization

/-- The definition is the draft that the organization has of the workflow. -/
structure IsDraft (db : Database) (workflow organization : String) (d : Definition) : Prop extends
    IsLatest db workflow organization d where
  draft : d.status = .known .draft

/-- The refusal of a draft, with all that is wrong with it. -/
def rejection (workflow : String) (draft : Definition) (defects : List Defect) : Failure :=
  .validation ("Workflow " ++ workflow ++ " v" ++ toString draft.version ++ " is not valid")
    (defects.map Defect.toValue)

/-- The draft has no structural defects, and everything that its graph refers to is confirmed. -/
structure Releasable (env : Environment σ) (w : World σ) (workflow organization : String)
    (d : Definition) (g : Graph) : Prop extends IsDraft w.db workflow organization d where
  sound : checkStructure d.graph = ⟨[], some g⟩
  confirmed : ∀ a ∈ ((lookUps env organization g.references).run w).1, a = .ok true

/-- The failures of an attempt to publish a workflow, each with the world that it leaves. -/
inductive Refusal (env : Environment σ) (w : World σ) (workflow organization : String) :
    Failure → World σ → Prop where
  | unknown
    (absent : ∀ d ∈ w.db.definitions, d.workflow = workflow → d.organization ≠ organization) :
    Refusal env w workflow organization (.notFound ("Workflow " ++ workflow ++ " not found")) w
  | undrafted {d : Definition} (latest : IsLatest w.db workflow organization d)
    (left : d.status ≠ .known .draft) :
    Refusal env w workflow organization
      (.conflict ("Workflow " ++ workflow ++ " has no draft to publish")) w
  | unsound {d : Definition} (draft : IsDraft w.db workflow organization d)
    (unsound : ¬(checkStructure d.graph).isOk) :
    Refusal env w workflow organization
      (rejection workflow d (checkStructure d.graph).defects) w
  | unconfirmed {d : Definition} {g : Graph} (draft : IsDraft w.db workflow organization d)
    (sound : checkStructure d.graph = ⟨[], some g⟩)
    (unconfirmed : ¬∀ a ∈ ((lookUps env organization g.references).run w).1, a = .ok true) :
    Refusal env w workflow organization
      (rejection workflow d
        (Graph.Reference.defects g.references ((lookUps env organization g.references).run w).1))
      ((lookUps env organization g.references).run w).2

/-- What may come of an attempt to publish a workflow. -/
inductive Publication (env : Environment σ) (w : World σ) (workflow organization : String) :
    Except Failure Definition × World σ → Prop where
  | refused {f : Failure} {after : World σ}
    (refusal : Refusal env w workflow organization f after) :
    Publication env w workflow organization (.error f, after)
  | released {d : Definition} {g : Graph} {type : String} {after : World σ}
    (releasable : Releasable env w workflow organization d g) (listens : triggerName g = some type)
    (asked : ((lookUps env organization g.references).run w).2 = after) :
    Publication env w workflow organization (.ok (d.released (after.clock.later 1) type),
      { after with
        clock := after.clock.later 1
        db := { after.db with
          definitions := w.db.definitions.map (.publishing (after.clock.later 1) d type) } })

/-- The part of an attempt that comes after the draft was found. -/
def publishDraft (env : Environment σ) (workflow organization : String) (draft : Definition) :
    Engine σ Definition := do
  let v ← validate env draft.graph organization
  if v.isOk then
    commit fun time => Database.markPublished time draft (v.graph?.bind triggerName)
  else throw (rejection workflow draft v.defects)

theorem run_latest (workflow organization : String) (w : World σ) :
    (latest workflow organization).run w = (w.db.latest workflow organization, w) := rfl

theorem run_publish (w : World σ) : (publish env workflow organization).run w =
    match w.db.latest workflow organization with
    | .error f => (.error f, w)
    | .ok d =>
      if d.status = .known .draft then (publishDraft env workflow organization d).run w
      else (.error (.conflict ("Workflow " ++ workflow ++ " has no draft to publish")), w) := by
  unfold publish
  rw [run_bind, run_latest]
  cases w.db.latest workflow organization with
  | error f => rfl
  | ok d =>
    by_cases hdraft : d.status = .known .draft
    · simp only [hdraft, ne_eq, not_true_eq_false, if_false, if_true]
      rfl
    · simp only [hdraft, ne_eq, not_false_eq_true, if_false, if_true]
      rfl

/-- A draft that is found is refused for the defects of its graph, or else for those of what it
refers to, or it is published. -/
theorem publication_of_isDraft (env : Environment σ) {w : World σ} {d : Definition}
    (versioned : Versioned w.db.definitions) (draft : IsDraft w.db workflow organization d) :
    Publication env w workflow organization
      ((publishDraft env workflow organization d).run w) := by
  unfold publishDraft
  rw [run_bind]
  by_cases hok : (checkStructure d.graph).isOk
  · obtain ⟨g, sound⟩ := exists_of_isOk_checkStructure hok
    obtain ⟨trigger, type, -, listens⟩ := exists_listens_of_checkStructure sound
    have hiff := Graph.Reference.defects_eq_nil_iff
      (length_lookUps env organization g.references w)
    have hdefinitions := (run_lookUps env organization g.references w).1.definitions_eq
    rw [run_validate_of_sound sound]
    generalize hafter : ((lookUps env organization g.references).run w).2 = after at *
    dsimp only
    split
    · rename_i hconfirmed
      have hmark := Database.markPublished_eq (hdefinitions ▸ versioned)
        (hdefinitions ▸ draft.newest.mem) draft.draft (after.clock.later 1) type
      rw [run_commit, Option.bind_some, listens, hmark, hdefinitions]
      exact .released ⟨draft, sound, hiff.1 (List.isEmpty_iff.1 hconfirmed)⟩ listens hafter
    · rename_i hunconfirmed
      rw [← hafter]
      exact .refused
        (.unconfirmed draft sound fun h => hunconfirmed (List.isEmpty_iff.2 (hiff.2 h)))
  · rw [run_validate_of_unsound hok]
    dsimp only
    rw [if_neg hok]
    exact .refused (.unsound draft hok)

/-- An attempt to publish a workflow ends in one of these ways. -/
theorem publication (env : Environment σ) {w : World σ} (versioned : Versioned w.db.definitions)
    (workflow organization : String) :
    Publication env w workflow organization ((publish env workflow organization).run w) := by
  rw [run_publish]
  cases hlatest : w.db.latest workflow organization with
  | error f =>
    obtain ⟨rfl, absent⟩ := Database.latest_eq_error_iff.1 hlatest
    exact .refused (.unknown absent)
  | ok d =>
    obtain ⟨newest, hworkflow, horganization⟩ := (Database.latest_eq_ok_iff versioned).1 hlatest
    have latest : IsLatest w.db workflow organization d := ⟨newest, hworkflow, horganization⟩
    dsimp only
    split
    · rename_i hdraft
      exact publication_of_isDraft env versioned ⟨latest, hdraft⟩
    · rename_i left
      exact .refused (.undrafted latest left)

/-! ## Refusals -/

variable {db : Database} {w after : World σ} {a b d : Definition} {f : Failure} {g : Graph}
  {outcome : Except Failure Definition × World σ}

theorem IsLatest.eq (versioned : Versioned db.definitions)
    (ha : IsLatest db workflow organization a) (hb : IsLatest db workflow organization b) : a = b :=
  versioned.newest_unique ha.newest hb.newest (ha.workflow_eq.trans hb.workflow_eq.symm)

namespace Refusal

/-- Where a draft is refused, it has structural defects, and nothing was asked about, or something
that it refers to is not confirmed. -/
theorem of_isDraft (h : Refusal env w workflow organization f after)
    (versioned : Versioned w.db.definitions) (draft : IsDraft w.db workflow organization d) :
    ¬(checkStructure d.graph).isOk ∧ after = w ∨
      ∃ g, checkStructure d.graph = ⟨[], some g⟩ ∧
        (¬∀ a ∈ ((lookUps env organization g.references).run w).1, a = .ok true) ∧
        after = ((lookUps env organization g.references).run w).2 := by
  cases h with
  | unknown absent =>
    exact absurd draft.organization_eq (absent d draft.newest.mem draft.workflow_eq)
  | undrafted latest left => exact absurd (latest.eq versioned draft.toIsLatest ▸ draft.draft) left
  | unsound draft' unsound =>
    obtain rfl := draft'.toIsLatest.eq versioned draft.toIsLatest
    exact Or.inl ⟨unsound, rfl⟩
  | unconfirmed draft' sound unconfirmed =>
    obtain rfl := draft'.toIsLatest.eq versioned draft.toIsLatest
    exact Or.inr ⟨_, sound, unconfirmed, rfl⟩

/-- A refusal changes nothing, and others may cancel runs meanwhile. -/
theorem concedes (h : Refusal env w workflow organization f after) : w.db.Concedes after.db := by
  cases h with
  | unknown | undrafted | unsound => exact .refl _
  | unconfirmed => exact (run_lookUps env organization _ w).1

end Refusal

namespace Publication

/-- Everything that a draft without structural defects refers to is asked about. -/
theorem calls_eq (h : Publication env w workflow organization outcome)
    (versioned : Versioned w.db.definitions) (draft : IsDraft w.db workflow organization d)
    (sound : checkStructure d.graph = ⟨[], some g⟩) :
    outcome.2.calls = w.calls ++ g.references.map (·.question organization) := by
  cases h with
  | refused refusal =>
    rcases refusal.of_isDraft versioned draft with ⟨unsound, -⟩ | ⟨g', sound', -, rfl⟩
    · exact absurd (isOk_of_checkStructure sound) unsound
    · obtain rfl := eq_of_checkStructure sound' sound
      exact (run_lookUps env organization g'.references w).2
  | released releasable listens asked =>
    obtain rfl := releasable.toIsLatest.eq versioned draft.toIsLatest
    obtain rfl := eq_of_checkStructure releasable.sound sound
    rw [← asked]
    exact (run_lookUps env organization _ w).2

end Publication

end Engine

end CrmAutomation
