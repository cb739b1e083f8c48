import CrmAutomation.Proofs.Engine.Editing
import CrmAutomation.Proofs.Engine.Isolation

/-!
# Whose rows are whose

Whatever was asked for (`World.Reached`), the ids of definitions and runs are not shared, the
versions of a workflow are all of one organization, and so are a run and its definition
(`Tidy`). So no id and no workflow of an organization is one of the others', and no run of the
others is in a slot of its definitions; and two such worlds with the same rows of the organization
are alike for it (`World.Agree.alike`).
-/

namespace CrmAutomation

variable {σ : Type}

/-! ## Worlds that are reached -/

/-- A world to which requests lead from one without tables in which no graph was parsed, each of
them served by a host that makes up names without a colon. -/
inductive World.Reached : World σ → Prop where
  | empty {w : World σ} (tables : w.db = .empty) (unparsed : w.graphs = []) : Reached w
  | serve {w : World σ} (h : Reached w) (env : Environment σ)
    (named : ∀ id, env.host.NamesDefinition id → ':' ∉ id.toList) (q : Request) :
    Reached (q.perform env w)

/-- The definitions are in order, and what is in use are definitions that are there. -/
structure Tidy (w : World σ) : Prop where
  versioned : Versioned w.db.definitions
  named : ∀ d ∈ w.db.definitions, ':' ∉ d.id.toList
  employs : Employs (· ∈ w.db.definitions) w.db.definitions w

namespace Tidy

variable {env : Environment σ} {w w' : World σ}

theorem of_empty (tables : w.db = .empty) (unparsed : w.graphs = []) : Tidy w where
  versioned := by simpa [tables, Database.empty] using versioned_nil
  named := by simp [tables, Database.empty]
  employs := ⟨rfl, Database.runsCoherent_of_runs_eq_nil (by rw [tables]; rfl),
    by simp [tables, Database.empty], by simp [unparsed]⟩

/-- What was in use stays so when workflows are edited. -/
theorem employs_of_act (hnames : ∀ id, env.host.NamesDefinition id → ':' ∉ id.toList)
    (hact : Act env .asking w w') (named : ∀ d ∈ w.db.definitions, ':' ∉ d.id.toList)
    (h : Employs (· ∈ w.db.definitions) w.db.definitions w) :
    (∀ d ∈ w'.db.definitions, ':' ∉ d.id.toList) ∧
      Employs (· ∈ w'.db.definitions) w'.db.definitions w' := by
  cases hact with
  | edit db hdb =>
    exact ⟨hdb.named hnames named, h.revise rfl hdb.runs_eq rfl fun d hd => hdb.exists_stays hd⟩
  | deed hdeed =>
    rw [hdeed.definitions_eq]
    exact ⟨named, (hdeed.mono (Remit.asking_within _)).employs named h⟩

theorem employs_of_work (h : Tidy w) (q : Request) (rest : ¬q.IsEdit) :
    Employs (· ∈ w.db.definitions) w.db.definitions (q.perform env w) := by
  have hserves : Engine.Serves env (Deed env (.employing (· ∈ w.db.definitions)))
      (Employs (· ∈ w.db.definitions) w.db.definitions) :=
    Engine.serves_employs h.named fun _ hd _ => hd
  have hstart : ∀ d ∈ w.db.definitions, ∀ contact payload,
      Employs (· ∈ w.db.definitions) w.db.definitions
        ((Engine.startManually env d contact payload).run w).2 := fun d hd contact payload =>
    (Engine.stays_iff.1 (Engine.stays_startManually_employs h.named (fun _ hd _ => hd) hd contact
      payload) w h.employs).2
  cases q with
  | create | save | publish | archive => exact absurd trivial rest
  | trigger workflow organization contact payload =>
    simp only [Request.perform]
    split
    · rename_i d hd
      exact hstart d (Database.published?_spec hd).1 contact payload
    · exact h.employs
  | operate o =>
    refine o.keep_of_serves hserves ?_ (fun time => ⟨rfl, h.employs.2, h.employs.3, h.employs.4⟩)
      ⟨rfl, h.employs.2, h.employs.3, by simp⟩ h.employs
    rintro id contact payload rfl
    simp only [Operation.perform]
    split
    · rename_i d hd
      exact hstart d (List.mem_of_find?_eq_some hd) contact payload
    · exact h.employs

theorem perform (h : Tidy w) (hnames : ∀ id, env.host.NamesDefinition id → ':' ∉ id.toList)
    (q : Request) : Tidy (q.perform env w) := by
  have versioned : Versioned (q.perform env w).db.definitions := q.versioned h.versioned
  by_cases edit : q.IsEdit
  · obtain ⟨named, employs⟩ := (q.path_of_isEdit edit h.versioned.ids).keep
      (I := fun w => (∀ d ∈ w.db.definitions, ':' ∉ d.id.toList) ∧
        Employs (· ∈ w.db.definitions) w.db.definitions w)
      (fun _ _ hact hw => employs_of_act hnames hact hw.1 hw.2) ⟨h.named, h.employs⟩
    exact ⟨versioned, named, employs⟩
  · have hdefinitions : (q.perform env w).db.definitions = w.db.definitions :=
      q.definitions_perform edit
    refine ⟨versioned, hdefinitions ▸ h.named, ?_⟩
    rw [hdefinitions]
    exact h.employs_of_work q edit

end Tidy

theorem World.Reached.tidy {w : World σ} (h : w.Reached) : Tidy w := by
  induction h with
  | empty tables unparsed => exact .of_empty tables unparsed
  | serve _ env named q ih => exact ih.perform named q

/-! ## Rows of others -/

section Rows

variable {w v : World σ} {o : String}

namespace Tidy

variable (h : Tidy w)

include h

theorem lacksDefinition {d : Definition} (hd : d ∈ (w.db.ownedBy o).definitions) :
    (w.db.besides o).LacksDefinition d.id := by
  intro a ha hid
  obtain ⟨hmem, howner⟩ := List.mem_filter.1 hd
  obtain ⟨hother, hforeign⟩ := List.mem_filter.1 ha
  rw [List.inj_on_of_nodup_map h.versioned.ids hother hmem hid] at hforeign
  exact absurd (beq_iff_eq.1 howner) (by simpa using hforeign)

theorem lacksWorkflow {d : Definition} (hd : d ∈ (w.db.ownedBy o).definitions) :
    (w.db.besides o).LacksWorkflow d.workflow := by
  intro a ha hworkflow
  obtain ⟨hmem, howner⟩ := List.mem_filter.1 hd
  obtain ⟨hother, hforeign⟩ := List.mem_filter.1 ha
  rw [h.versioned.owned a hother d hmem hworkflow] at hforeign
  exact absurd (beq_iff_eq.1 howner) (by simpa using hforeign)

theorem lacksRun {r : Run} (hr : r ∈ (w.db.ownedBy o).runs) :
    (w.db.besides o).LacksRun r.id := by
  intro a ha hid
  obtain ⟨hmem, howner⟩ := List.mem_filter.1 hr
  obtain ⟨hother, hforeign⟩ := List.mem_filter.1 ha
  rw [List.inj_on_of_nodup_map h.employs.coherent.ids hother hmem hid] at hforeign
  exact absurd (beq_iff_eq.1 howner) (by simpa using hforeign)

/-- A run of the organization is one of a definition of the organization. -/
theorem lacksDefinition_of_run {r : Run} (hr : r ∈ (w.db.ownedBy o).runs) :
    (w.db.besides o).LacksDefinition r.definition := by
  obtain ⟨hmem, howner⟩ := List.mem_filter.1 hr
  obtain ⟨d, hd, hid, hsame⟩ := h.employs.runs r hmem
  exact hid ▸ h.lacksDefinition (List.mem_filter.2 ⟨hd, by rwa [hsame]⟩)

/-- A run is in the slot of its own definition, and that is of the organization of the run. -/
theorem keyed : (w.db.besides o).Keyed := by
  intro r hr id contact named lacks hkey
  obtain ⟨hmem, hforeign⟩ := List.mem_filter.1 hr
  have coherent := h.employs.coherent
  obtain ⟨d, hd, hid, hsame⟩ := h.employs.runs r hmem
  have hslot : activeKeyOf r.definition r.contact = activeKeyOf id contact := by
    by_contra hne
    rw [(coherent.coherent r hmem).slot] at hkey
    split at hkey
    · exact hne (Option.some.inj hkey)
    · cases hkey
  have hdefinition := (activeKeyOf_inj (coherent.named r hmem) named hslot).1
  exact lacks d (List.mem_filter.2 ⟨hd, by rwa [hsame]⟩) (hid.trans hdefinition)

/-- A graph was parsed for a definition that is there. -/
theorem cached?_eq_none {id : String} (own : ∀ d ∈ (w.db.ownedBy o).definitions, d.id ≠ id)
    (lacks : (w.db.besides o).LacksDefinition id) : Engine.cached? id w.graphs = none := by
  rw [Engine.cached?, Option.map_eq_none_iff, List.find?_eq_none]
  intro p hp hid
  obtain ⟨d, hd, hdid⟩ := h.employs.graphs p hp
  rw [beq_iff_eq] at hid
  by_cases howner : d.organization = o
  · exact own d (List.mem_filter.2 ⟨hd, by simpa using howner⟩) (hdid.trans hid)
  · exact lacks d (List.mem_filter.2 ⟨hd, by simpa using howner⟩) (hdid.trans hid)

/-- The rows of the organization cannot be taken for those of others that lack their ids. -/
theorem apart {others : Database} (within : (w.db.besides o).Within others) (keyed : others.Keyed)
    (definitions : ∀ d ∈ (w.db.ownedBy o).definitions,
      others.LacksDefinition d.id ∧ others.LacksWorkflow d.workflow)
    (runs : ∀ r ∈ (w.db.ownedBy o).runs,
      others.LacksRun r.id ∧ others.LacksDefinition r.definition) :
    Database.Apart others (w.db.besides o) o w.db where
  besides_eq := rfl
  within := within
  keyed := keyed
  definitions d hd howner :=
    have ⟨hid, hworkflow⟩ := definitions d (List.mem_filter.2 ⟨hd, by simp [howner]⟩)
    ⟨howner, h.named d hd, hid, hworkflow⟩
  runs r hr howner :=
    have ⟨hid, hdefinition⟩ := runs r (List.mem_filter.2 ⟨hr, by simp [howner]⟩)
    ⟨howner, hid, hdefinition⟩

end Tidy

/-- Two worlds with the same of an organization: its rows, what was parsed of its graphs, the time,
and the state of the host. -/
structure World.Agree (o : String) (w v : World σ) : Prop where
  rows : w.db.ownedBy o = v.db.ownedBy o
  parsed : ∀ d ∈ (w.db.ownedBy o).definitions,
    Engine.cached? d.id w.graphs = Engine.cached? d.id v.graphs
  clock : w.clock = v.clock
  host : w.host = v.host

/-- The border between what two worlds have of an organization and what they have besides. -/
def World.border (o : String) (whole : Prop) (S : σ → Prop) (w v : World σ) : Border σ where
  organization := o
  left := w.db.besides o
  right := v.db.besides o
  whole := whole
  askedLeft := w.calls
  askedRight := v.calls
  states := S

/-- Tidy worlds with the same of an organization are alike. -/
theorem World.Agree.alike (h : World.Agree o w v) (hw : Tidy w) (hv : Tidy v)
    {whole : Prop} (same : whole → w.db = v.db) {S : σ → Prop} (state : S w.host) :
    World.Alike (World.border o whole S w v) (fun _ => False) w v := by
  have definitions : ∀ d ∈ (w.db.ownedBy o).definitions,
      (World.border o whole S w v).others.LacksDefinition d.id ∧
        (World.border o whole S w v).others.LacksWorkflow d.workflow := fun d hd =>
    ⟨Border.lacksDefinition (hw.lacksDefinition hd) (hv.lacksDefinition (h.rows ▸ hd)),
      Border.lacksWorkflow (hw.lacksWorkflow hd) (hv.lacksWorkflow (h.rows ▸ hd))⟩
  have runs : ∀ r ∈ (w.db.ownedBy o).runs,
      (World.border o whole S w v).others.LacksRun r.id ∧
        (World.border o whole S w v).others.LacksDefinition r.definition := fun r hr =>
    ⟨Border.lacksRun (hw.lacksRun hr) (hv.lacksRun (h.rows ▸ hr)),
      Border.lacksDefinition (hw.lacksDefinition_of_run hr)
        (hv.lacksDefinition_of_run (h.rows ▸ hr))⟩
  have keyed : (World.border o whole S w v).others.Keyed := Border.keyed hw.keyed hv.keyed
  have left := hw.apart (World.border o whole S w v).left_within keyed definitions runs
  have right := hv.apart (World.border o whole S w v).right_within keyed
    (fun d hd => definitions d (h.rows ▸ hd)) fun r hr => runs r (h.rows ▸ hr)
  refine ⟨⟨left, right, h.rows, same, fun _ => False.elim⟩, h.clock, h.host, state,
    fun id lacks => ?_, [], by simp [World.border], by simp [World.border], by simp⟩
  by_cases own : ∃ d ∈ (w.db.ownedBy o).definitions, d.id = id
  · obtain ⟨d, hd, rfl⟩ := own
    exact h.parsed d hd
  · simp only [not_exists, not_and] at own
    rw [hw.cached?_eq_none own fun d hd => lacks d (List.mem_append_left _ hd),
      hv.cached?_eq_none (h.rows ▸ own) fun d hd => lacks d (List.mem_append_right _ hd)]

/-- Worlds that are alike have the same of the organization. -/
theorem World.Alike.agree {b : Border σ} {K : String → Prop} (h : World.Alike b K w v) :
    World.Agree b.organization w v where
  rows := h.db.owned_eq
  parsed d hd :=
    have ⟨hmem, howner⟩ := List.mem_filter.1 hd
    h.graphs d.id (h.db.left.definitions d hmem (beq_iff_eq.1 howner)).definition
  clock := h.clock
  host := h.host

end Rows

end CrmAutomation
