import CrmAutomation.Proofs.Engine.Matching
import CrmAutomation.Proofs.Engine.Publication

/-!
# Editing workflows

Requests come one after the other, each with surroundings of its own (`World.ServedTo`): other
services, other failures, other names that are made up. Those that edit workflows make one edit of
the table of definitions (`Request.edits`), and the others leave it alone
(`Request.definitions_perform`).

So the table is in order wherever requests lead to from a world without workflows, and a row that
has left draft lasts, whatever is requested afterwards (`workflows_in_order`). In such a world a
workflow is published just when its last version is a sound draft and everything it refers to is
confirmed; else no definition changes, and all that is wrong is told
(`Engine.publish_iff_releasable`).
-/

namespace CrmAutomation

variable {σ : Type}

/-! ## Commands -/

namespace Engine

variable {α : Type} {env : Environment σ} {w : World σ} {ds : List Definition}
  {workflow organization : String}

/-- A change is an edit of the definitions, or it is refused and leaves these as they are. -/
theorem edits_commit {change : Instant → Database → Except Failure (α × Database)}
    (hrefused : Edits ds w.db.definitions)
    (h : ∀ now a db', change now w.db = .ok (a, db') → Edits ds db'.definitions) :
    Edits ds ((commit change).run w).2.db.definitions := by
  rw [run_commit]
  split
  · rename_i a db' hchange
    exact h _ a db' hchange
  · exact hrefused

/-- Only the host has a part in making up a name. -/
theorem edits_freshId {kind : IdKind} {f : String → Engine σ α}
    (h : ∀ id host, Edits ds ((f id).run { w with host := host }).2.db.definitions) :
    Edits ds ((freshId env kind >>= f).run w).2.db.definitions :=
  h _ _

theorem edits_createWorkflow (versioned : Versioned w.db.definitions)
    (organization name description : String) (graph : Value) (createdBy : Option String) :
    Edits w.db.definitions ((createWorkflow env organization name description graph createdBy).run
      w).2.db.definitions := by
  refine edits_freshId fun workflow host => edits_freshId fun id host' => ?_
  exact edits_commit (.refl versioned) fun _ _ _ h => Database.edits_createWorkflow versioned h

theorem edits_saveDraft (versioned : Versioned w.db.definitions) (workflow organization : String)
    (edit : Database.Edit) :
    Edits w.db.definitions ((saveDraft env workflow organization edit).run w).2.db.definitions := by
  unfold saveDraft
  rw [run_bind, run_latest]
  cases hread : w.db.latest workflow organization with
  | error f => exact .refl versioned
  | ok read =>
    obtain ⟨newest, -⟩ := (Database.latest_eq_ok_iff versioned).1 hread
    refine edits_freshId fun id host => ?_
    exact edits_commit (.refl versioned) fun _ _ _ h =>
      Database.edits_writeDraft versioned newest h

theorem edits_archive (versioned : Versioned w.db.definitions) (workflow organization : String) :
    Edits w.db.definitions ((archive workflow organization).run w).2.db.definitions :=
  edits_commit (.refl versioned) fun _ _ _ h => Database.edits_archive versioned h

theorem Publication.edits (versioned : Versioned w.db.definitions)
    {outcome : Except Failure Definition × World σ}
    (h : Publication env w workflow organization outcome) :
    Edits w.db.definitions outcome.2.db.definitions := by
  cases h with
  | refused refusal =>
    rw [refusal.concedes.definitions_eq]
    exact .refl versioned
  | released releasable listens =>
    exact Database.edits_publishing versioned releasable.newest.mem releasable.draft
      releasable.sound listens _

end Engine

/-! ## Requests -/

namespace Request

variable {env : Environment σ} {w : World σ}

/-- What edits workflows makes one edit of the table of definitions. -/
theorem edits (q : Request) (edit : q.IsEdit) (versioned : Versioned w.db.definitions) :
    Edits w.db.definitions (q.perform env w).db.definitions := by
  cases q with
  | create => exact Engine.edits_createWorkflow versioned _ _ _ _ _
  | save => exact Engine.edits_saveDraft versioned _ _ _
  | publish => exact (Engine.publication env versioned _ _).edits versioned
  | archive => exact Engine.edits_archive versioned _ _
  | trigger | operate => exact edit.elim

/-- What edits no workflow leaves the definitions alone. -/
theorem definitions_perform (q : Request) (rest : ¬q.IsEdit) :
    (q.perform env w).db.definitions = w.db.definitions := by
  have hdeed : ∀ v v' : World σ, Deed env (.handling fun _ => True) v v' →
      v.db.definitions = w.db.definitions → v'.db.definitions = w.db.definitions :=
    fun v v' h hv => h.definitions_eq.trans hv
  cases q with
  | create | save | publish | archive => exact absurd trivial rest
  | trigger workflow organization contact payload =>
    simp only [perform]
    split
    · exact (Engine.stays_iff.1 (Engine.stays_startManually (fun _ _ => trivial) trivial hdeed _
        contact payload) w rfl).2
    · rfl
  | operate o =>
    exact o.keep_of_deed (fun _ => True) (I := fun v => v.db.definitions = w.db.definitions)
      (fun _ _ => trivial) trivial hdeed (fun v v' hdb _ hv => (congrArg _ hdb).trans hv) rfl

/-- Every request keeps the table in order. -/
theorem versioned (q : Request) (h : Versioned w.db.definitions) :
    Versioned (q.perform env w).db.definitions := by
  by_cases edit : q.IsEdit
  · exact h.edits (q.edits edit h)
  · rwa [q.definitions_perform edit]

/-- A row that has left draft lasts over a request. -/
theorem exists_lasts (q : Request) (h : Versioned w.db.definitions) {d : Definition}
    (hd : d ∈ w.db.definitions) (left : d.status ≠ .known .draft) :
    ∃ d' ∈ (q.perform env w).db.definitions, d.Lasts d' := by
  by_cases edit : q.IsEdit
  · exact (q.edits edit h).exists_lasts hd left
  · rw [q.definitions_perform edit]
    exact ⟨d, hd, .refl d⟩

end Request

/-- Whatever was asked for, the table of definitions is in order. -/
theorem World.Attained.versioned {w : World σ} (h : w.Attained) : Versioned w.db.definitions := by
  induction h with
  | empty tables => simpa [tables, Database.empty] using versioned_nil
  | serve _ env _ q _ ih => exact q.versioned ih

/-- Requests lead from one world to another, each of them served in surroundings of its own. -/
def World.ServedTo : World σ → World σ → Prop :=
  Relation.ReflTransGen fun w w' => ∃ (env : Environment σ) (q : Request), q.perform env w = w'

namespace World.ServedTo

variable {w w' : World σ}

/-- The table stays in order. -/
theorem versioned (h : w.ServedTo w') (hw : Versioned w.db.definitions) :
    Versioned w'.db.definitions := by
  induction h with
  | refl => exact hw
  | tail _ hstep ih =>
    obtain ⟨env, q, rfl⟩ := hstep
    exact q.versioned ih

/-- A row that has left draft lasts. -/
theorem exists_lasts (h : w.ServedTo w') (hw : Versioned w.db.definitions) {d : Definition}
    (hd : d ∈ w.db.definitions) (left : d.status ≠ .known .draft) :
    ∃ d' ∈ w'.db.definitions, d.Lasts d' := by
  induction h with
  | refl => exact ⟨d, hd, .refl d⟩
  | tail served hstep ih =>
    obtain ⟨env, q, rfl⟩ := hstep
    obtain ⟨o, ho, hlasts⟩ := ih
    obtain ⟨d', hd', hlasts'⟩ : ∃ d' ∈ (q.perform env _).db.definitions, o.Lasts d' :=
      q.exists_lasts (World.ServedTo.versioned served hw) ho (hlasts.left left)
    exact ⟨d', hd', hlasts.trans hlasts'⟩

end World.ServedTo

/-- The versions of workflows that are edited by requests are in order at any time, and what has
left draft stays as it was, except that it may be archived. -/
theorem workflows_in_order {w₀ w w' : World σ} (blank : w₀.db.definitions = [])
    (served : w₀.ServedTo w) (served' : w.ServedTo w') :
    Versioned w.db.definitions ∧
      ∀ d ∈ w.db.definitions, d.status ≠ .known .draft → ∃ d' ∈ w'.db.definitions, d.Lasts d' := by
  have hversioned : Versioned w.db.definitions := served.versioned (blank ▸ versioned_nil)
  exact ⟨hversioned, fun d hd left => served'.exists_lasts hversioned hd left⟩

/-- The surroundings of `Engine.careful`, with an id of its own for each version. -/
def versioning : Environment Unit :=
  { Engine.careful with
    host := { Engine.careful.host with
      freshId := fun kind _ _ => match kind with
        | .definition _ version => ("pause-" ++ toString version, ())
        | _ => ("pause", ()) } }

/-- The world in which the first version of a workflow is a draft. -/
def drafted : World Unit :=
  (Request.create "o-1" "Pause" "" Engine.pause none).perform versioning Engine.blank

/-- The world in which the draft is published. -/
def released : World Unit := (Request.publish "pause" "o-1").perform versioning drafted

/-- The world in which the next version was begun under another name, and the first one archived. -/
def renamed : World Unit :=
  (Request.archive "pause" "o-1").perform versioning
    ((Request.save "pause" "o-1" { name := some "Break" }).perform versioning released)

/-- The first version is archived, and keeps its name when the second one is begun under another. -/
theorem workflows_in_order_of_renamed :
    Engine.blank.ServedTo released ∧ released.ServedTo renamed ∧
    renamed.db.definitions.map (fun d => (d.version, d.name, d.status)) =
      [(1, "Pause", .known .archived), (2, "Break", .known .draft)] ∧
    Versioned released.db.definitions ∧
    ∃ d ∈ released.db.definitions, d.status = .known .published ∧
      ∃ d' ∈ renamed.db.definitions, d.Lasts d' := by
  have served : Engine.blank.ServedTo released :=
    .tail (.single ⟨versioning, _, rfl⟩) ⟨versioning, _, rfl⟩
  have served' : released.ServedTo renamed :=
    .tail (.single ⟨versioning, _, rfl⟩) ⟨versioning, _, rfl⟩
  obtain ⟨hversioned, hlast⟩ := workflows_in_order rfl served served'
  have hpublished : (released.db.definitions.map (·.status)) = [.known .published] := by
    decide +kernel
  obtain ⟨d, hd, hstatus⟩ : ∃ d ∈ released.db.definitions, d.status = .known .published :=
    List.mem_map.1 (hpublished ▸ List.mem_cons_self)
  exact ⟨served, served', by decide +kernel, hversioned, d, hd, hstatus,
    hlast d hd (by simp [hstatus])⟩

/-! ## Publishing -/

namespace Engine

/-- The surroundings of `versioning` where no service answers. -/
def unanswered : Environment Unit :=
  { versioning with
    host := { versioning.host with service := fun _ _ _ => (⟨[], .silence⟩, ()) } }

end Engine

end CrmAutomation
