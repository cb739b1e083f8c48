import CrmAutomation.Proofs.Engine.Logs
import CrmAutomation.Proofs.Store.Publishing

/-!
# Requests

Between the operations of a worker workflows are created, edited, published and archived, and runs
are started by hand on the published version (`Request`). What edits workflows asks services and
makes up names, and then makes one edit of the table of definitions or none (`Act`). So what deeds
and edits keep is kept by every request (`Request.keep_perform`).
-/

namespace CrmAutomation

variable {σ α β : Type}

/-- What the service is asked for. -/
inductive Request where
  | create (organization name description : String) (graph : Value) (createdBy : Option String)
  | save (workflow organization : String) (edit : Database.Edit)
  | publish (workflow organization : String)
  | archive (workflow organization : String)
  | trigger (workflow organization contact : String) (payload : Members)
  | operate (o : Operation)

/-- The world after a request, whether it failed or not. -/
def Request.perform (env : Environment σ) (w : World σ) : Request → World σ
  | create organization name description graph createdBy =>
    ((Engine.createWorkflow env organization name description graph createdBy).run w).2
  | save workflow organization edit => ((Engine.saveDraft env workflow organization edit).run w).2
  | publish workflow organization => ((Engine.publish env workflow organization).run w).2
  | archive workflow organization => ((Engine.archive workflow organization).run w).2
  | trigger workflow organization contact payload =>
    match w.db.published? workflow organization with
    | some d => ((Engine.startManually env d contact payload).run w).2
    | none => w
  | operate o => o.perform env w

/-- Whether a request edits a workflow. -/
def Request.IsEdit : Request → Prop
  | create .. | save .. | publish .. | archive .. => True
  | trigger .. | operate _ => False

/-- The world after requests, one after the other. -/
def serveAll (env : Environment σ) (w : World σ) (requests : List Request) : World σ :=
  requests.foldl (Request.perform env) w

/-- The ids that the host makes up for definitions. -/
def Host.NamesDefinition (host : Host σ) (id : String) : Prop :=
  ∃ workflow version db s, id = (host.freshId (.definition workflow version) db s).1

namespace Remit

/-- Nothing but making up names and calling services. -/
def asking : Remit := ⟨fun _ => False, fun _ => False, fun _ => False⟩

theorem asking_within (remit : Remit) : asking.Within remit :=
  ⟨fun _ => False.elim, fun _ => False.elim, fun _ => False.elim⟩

end Remit

/-- A deed, or an edit of the definitions. -/
inductive Act (env : Environment σ) (remit : Remit) (w : World σ) : World σ → Prop where
  | deed {w' : World σ} (h : Deed env remit w w') : Act env remit w w'
  | edit (db : Database) (h : w.db.Revises env.host.NamesDefinition db) :
    Act env remit w { w with clock := w.clock.later 1, db := db }

variable {env : Environment σ} {remit : Remit}

/-- No deed changes a definition. -/
theorem Deed.definitions_eq {w w' : World σ} (h : Deed env remit w w') :
    w'.db.definitions = w.db.definitions := by
  rcases h.database with conceded | ⟨d, c, conceded, -, now, hdb⟩ | ⟨d, r, conceded, -, hdb⟩
  · exact conceded.definitions_eq
  · rw [hdb, c.definitions_perform, conceded.definitions_eq]
  · rw [hdb]
    exact conceded.definitions_eq

/-! ## Edits -/

namespace Engine

variable {ds : List Definition} {F : World σ → Prop}

/-- What goes by deeds leaves the definitions alone. -/
theorem Does.leads_act {x : Engine σ α} (hx : Does env .asking x) :
    Leads (Act env .asking) (fun w => w.db.definitions = ds) x
      (fun _ w => w.db.definitions = ds) fun _ => True :=
  ((hx.keep (I := fun w => w.db.definitions = ds)
    fun _ _ hdeed hw => hdeed.definitions_eq.trans hw).conseq (fun _ hw => ⟨hw, trivial⟩)
    (fun _ _ hw => hw.1) fun _ _ => trivial).steps fun _ _ => .deed

/-- A name for a definition is one that the host makes up. -/
theorem leads_definitionId (workflow : String) (version : Int) :
    Leads (Act env .asking) (fun w => w.db.definitions = ds)
      (freshId env (.definition workflow version))
      (fun id w => env.host.NamesDefinition id ∧ w.db.definitions = ds) fun _ => True :=
  fun _ hw => ⟨.single (.deed (.name _)), ⟨_, _, _, _, rfl⟩, hw⟩

/-- A change that edits the definitions, unless it is refused. -/
theorem leads_commit {change : Instant → Database → Except Failure (α × Database)}
    (h : ∀ now db a db', db.definitions = ds → change now db = .ok (a, db') →
      db.Revises env.host.NamesDefinition db') :
    Leads (Act env .asking) (fun w => w.db.definitions = ds) (commit change) (fun _ _ => True)
      fun _ => True := by
  intro w hw
  rw [run_commit]
  split
  · rename_i a db' hchange
    exact ⟨.single (.edit db' (h _ _ a db' hw hchange)), trivial⟩
  · exact ⟨.single (.deed .tick), trivial⟩

theorem acts_createWorkflow (organization name description : String) (graph : Value)
    (createdBy : Option String) :
    Leads (Act env .asking) (fun w => w.db.definitions = ds)
      (createWorkflow env organization name description graph createdBy) (fun _ _ => True)
      fun _ => True := by
  refine .bind (Does.leads_act (does_freshId .workflow)) fun workflow => ?_
  refine .bind (leads_definitionId workflow 1) fun id => ?_
  refine .assume (fun w hw => hw.1) fun named => ?_
  exact (leads_commit fun now db d db' _ h => Database.revises_createWorkflow named h).pre
    fun w hw => hw.2

theorem leads_latest (workflow organization : String) :
    Leads (Act env .asking) (fun w => w.db.definitions = ds) (latest workflow organization)
      (fun d w => d ∈ ds ∧ w.db.definitions = ds) fun _ => True := by
  refine .bind (B := fun v w => v.db.definitions = ds ∧ w.db.definitions = ds)
    (leads_get fun w hw => ⟨hw, hw⟩) fun v => ?_
  refine .ofExcept _ (fun d w hd hw => ⟨?_, hw.2⟩) fun _ _ => trivial
  simp only [Database.latest] at hd
  split at hd
  · rename_i rest hversions
    cases hd
    have hmem : d ∈ v.db.versions workflow organization := hversions ▸ List.mem_cons_self
    rw [Database.versions, List.mem_mergeSort] at hmem
    exact hw.1 ▸ (List.mem_filter.1 hmem).1
  · cases hd

theorem acts_saveDraft (ids : (ds.map (·.id)).Nodup) (workflow organization : String)
    (edit : Database.Edit) :
    Leads (Act env .asking) (fun w => w.db.definitions = ds)
      (saveDraft env workflow organization edit) (fun _ _ => True) fun _ => True := by
  refine .bind (leads_latest workflow organization) fun read => ?_
  refine .assume (fun w hw => hw.1) fun hread => ?_
  refine .bind ((leads_definitionId workflow (read.version + 1)).pre fun w hw => hw.2) fun id => ?_
  refine .assume (fun w hw => hw.1) fun named => ?_
  refine (leads_commit fun now db d db' hds h => ?_).pre fun w hw => hw.2
  exact Database.revises_writeDraft (hds ▸ ids) (hds ▸ hread) named h

theorem acts_archive (ids : (ds.map (·.id)).Nodup) (workflow organization : String) :
    Leads (Act env .asking) (fun w => w.db.definitions = ds)
      (archive (σ := σ) workflow organization) (fun _ _ => True) fun _ => True :=
  leads_commit fun _ _ _ _ hds h => Database.revises_archive (hds ▸ ids) h

theorem does_referenceDefects (organization : String) :
    ∀ l : List Graph.Reference, Does env remit (referenceDefects env organization l)
  | [] => .pure _
  | r :: l => by
    refine .bind (.attempt ?_) fun found => .bind (does_referenceDefects organization l)
      fun others => ?_
    · unfold referenceExists
      split <;> exact does_demand _
    · split <;> exact .pure _

/-- A validation that finds no defect is one of a graph without structural defects. -/
theorem leads_validate (raw : Value) (organization : String) :
    Leads (Act env .asking) (fun w => w.db.definitions = ds) (validate env raw organization)
      (fun v w => (v.isOk → ∃ g, checkStructure raw = ⟨[], some g⟩ ∧ v.graph? = some g) ∧
        w.db.definitions = ds) fun _ => True := by
  unfold validate
  split
  · rename_i g hsound
    refine .bind (Does.leads_act (does_referenceDefects organization g.references))
      fun defects => ?_
    exact .pure _ fun w hw => ⟨fun _ => ⟨g, hsound, rfl⟩, hw⟩
  · refine .pure _ fun w hw => ⟨fun hok => ?_, hw⟩
    obtain ⟨g, hg⟩ := exists_of_isOk_checkStructure hok
    exact ⟨g, hg, by rw [hg]⟩

theorem acts_publish (ids : (ds.map (·.id)).Nodup) (workflow organization : String) :
    Leads (Act env .asking) (fun w => w.db.definitions = ds)
      (publish env workflow organization) (fun _ _ => True) fun _ => True := by
  refine .bind (leads_latest workflow organization) fun draft => ?_
  refine .assume (fun w hw => hw.1) fun hdraft => ?_
  refine Leads.pre ?_ fun w (hw : draft ∈ ds ∧ w.db.definitions = ds) => hw.2
  split
  · exact .bind (B := fun _ _ => False) (.throw _ fun _ _ => trivial) fun _ _ hw => hw.elim
  · refine .bind (leads_validate draft.graph organization) fun v => ?_
    refine .assume (fun w hw => hw.1) fun hsound => ?_
    split
    · rename_i hok
      obtain ⟨g, hg, hgraph⟩ := hsound hok
      refine (leads_commit fun now db d db' hds h => ?_).pre fun w hw => hw.2
      rw [hgraph, Option.bind_some] at h
      exact Database.revises_markPublished (hds ▸ ids) (hds ▸ hdraft) hg h
    · exact .throw _ fun _ _ => trivial

end Engine

/-! ## What requests keep -/

section Keeping

variable {depths : Int → Prop} {I : World σ → Prop}

theorem Act.nodup_ids {w w' : World σ} (h : Act env remit w w')
    (ids : (w.db.definitions.map (·.id)).Nodup) : (w'.db.definitions.map (·.id)).Nodup := by
  cases h with
  | deed h => rwa [h.definitions_eq]
  | edit db h => exact h.nodup_ids ids

/-- What edits workflows goes by naming and asking, and edits the definitions. -/
theorem Request.path_of_isEdit (q : Request) (edit : q.IsEdit) {w : World σ}
    (ids : (w.db.definitions.map (·.id)).Nodup) :
    Path (Act env .asking) w (q.perform env w) := by
  cases q with
  | create => exact (Engine.acts_createWorkflow _ _ _ _ _ w rfl).1
  | save => exact (Engine.acts_saveDraft ids _ _ _ w rfl).1
  | publish => exact (Engine.acts_publish ids _ _ w rfl).1
  | archive => exact (Engine.acts_archive ids _ _ w rfl).1
  | trigger | operate => exact edit.elim

/-- What deeds and edits keep, and what depends on the database and the host alone, is kept by every
request. -/
theorem Request.keep_perform (env : Environment σ)
    (shallow : ∀ depth ≤ env.rules.maxChainDepth, depths depth)
    (hzero : depths 0) (hdeed : ∀ w w', Deed env (.handling depths) w w' → I w → I w')
    (hedit : ∀ w db, w.db.Revises env.host.NamesDefinition db → I w →
      I { w with clock := w.clock.later 1, db := db })
    (hrest : ∀ w w' : World σ, w'.db = w.db → w'.host = w.host → I w → I w') (q : Request)
    {w : World σ} (hw : (w.db.definitions.map (·.id)).Nodup ∧ I w) :
    ((q.perform env w).db.definitions.map (·.id)).Nodup ∧ I (q.perform env w) := by
  have hdeed' : ∀ w w', Deed env (.handling depths) w w' →
      (w.db.definitions.map (·.id)).Nodup ∧ I w → (w'.db.definitions.map (·.id)).Nodup ∧ I w' :=
    fun w w' h hw => ⟨(Act.deed h).nodup_ids hw.1, hdeed w w' h hw.2⟩
  have hedits : ∀ w', Path (Act env .asking) w w' →
      (w'.db.definitions.map (·.id)).Nodup ∧ I w' := by
    intro w' hpath
    refine hpath.keep (I := fun w => (w.db.definitions.map (·.id)).Nodup ∧ I w)
      (fun a b hact ha => ⟨hact.nodup_ids ha.1, ?_⟩) hw
    cases hact with
    | deed h => exact hdeed a b (h.mono (Remit.asking_within _)) ha.2
    | edit db h => exact hedit a db h ha.2
  cases q with
  | create | save | publish | archive =>
    refine hedits _ (path_of_isEdit _ ?_ hw.1)
    trivial
  | trigger workflow organization contact payload =>
    simp only [perform]
    split
    · exact (Engine.stays_iff.1 (Engine.stays_startManually shallow hzero hdeed' _ contact
        payload) w hw).2
    · exact hw
  | operate o =>
    exact o.keep_of_deed depths (I := fun w => (w.db.definitions.map (·.id)).Nodup ∧ I w) shallow hzero
      hdeed' (fun w w' hdb hhost h => ⟨hdb ▸ h.1, hrest w w' hdb hhost h.2⟩) hw

/-- What every request keeps is kept by all of them. -/
theorem keep_serveAll_of (hperform : ∀ (q : Request) (w : World σ), I w → I (q.perform env w))
    (requests : List Request) {w : World σ} (hw : I w) : I (serveAll env w requests) := by
  induction requests generalizing w with
  | nil => exact hw
  | cons q requests ih => exact ih (hperform q w hw)

end Keeping

end CrmAutomation
