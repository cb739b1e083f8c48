import CrmAutomation.Proofs.Engine.Requests

/-!
# What is in use has left draft

Runs are begun on published versions, so the definition of a run, and of a graph that was parsed,
is one that has left draft (`Uses`). Such a definition keeps its graph. So whatever workflows are
created, edited, published and archived meanwhile, a graph that was parsed is the graph that is
stored with its definition, and the tables of runs and of definitions are in order
(`World.Attained.regular`).
-/

namespace CrmAutomation

variable {σ : Type} {ds : List Definition}

/-- The id is that of a definition that has left draft. -/
def Released (ds : List Definition) (id : String) : Prop :=
  ∃ d ∈ ds, d.id = id ∧ d.status ≠ .known .draft

theorem Released.named (named : ∀ d ∈ ds, ':' ∉ d.id.toList) {id : String}
    (h : Released ds id) : ':' ∉ id.toList := by
  obtain ⟨d, hd, rfl, -⟩ := h
  exact named d hd

/-- A definition that has left draft. -/
def Definition.ReleasedIn (ds : List Definition) (d : Definition) : Prop :=
  d ∈ ds ∧ d.status ≠ .known .draft

/-- The id is that of one of the definitions. -/
def Names (U : Definition → Prop) (id : String) : Prop := ∃ d, U d ∧ d.id = id

theorem Names.released {id : String} (h : Names (Definition.ReleasedIn ds) id) :
    Released ds id := by
  obtain ⟨d, ⟨hd, left⟩, hid⟩ := h
  exact ⟨d, hd, hid, left⟩

theorem Released.names {id : String} (h : Released ds id) :
    Names (Definition.ReleasedIn ds) id := by
  obtain ⟨d, hd, hid, left⟩ := h
  exact ⟨d, ⟨hd, left⟩, hid⟩

/-- A run of one of the definitions, of the same organization. -/
def Run.Rooted (U : Definition → Prop) (r : Run) : Prop :=
  ∃ d, U d ∧ d.id = r.definition ∧ d.organization = r.organization

section Employing

variable {U : Definition → Prop}

theorem Run.Rooted.names {r : Run} (h : r.Rooted U) : Names U r.definition := by
  obtain ⟨d, hd, hid, -⟩ := h
  exact ⟨d, hd, hid⟩

theorem Run.Rooted.congr {r r' : Run} (h : r.Rooted U) (hdefinition : r'.definition = r.definition)
    (horganization : r'.organization = r.organization) : r'.Rooted U := by
  obtain ⟨d, hd, hid, howner⟩ := h
  exact ⟨d, hd, hid.trans hdefinition.symm, howner.trans horganization.symm⟩

theorem mem_publishedFor {db : Database} {organization type : String} {d : Definition}
    (h : d ∈ db.publishedFor organization type) :
    d ∈ db.definitions ∧ d.status = .known .published := by
  rw [Database.publishedFor, List.mem_mergeSort] at h
  obtain ⟨hmem, hpublished⟩ := List.mem_filter.1 h
  simp only [Bool.and_eq_true, beq_iff_eq] at hpublished
  exact ⟨hmem, hpublished.1.2⟩

/-- Runs are begun, and graphs are kept, of some definitions. -/
def Remit.employing (U : Definition → Prop) : Remit where
  calls _ := True
  orders
    | .create _ d _ _ _ _ => U d
    | _ => True
  graphs := Names U

theorem Remit.claiming_within_employing : claiming.Within (employing U) := by
  refine ⟨fun _ _ => trivial, fun c hc => ?_, fun _ => False.elim⟩
  cases c with
  | create => exact hc.elim
  | moveTo | suspend | complete | fail | cancel | claimSuspended | release | claimStale => trivial

theorem Remit.advancing_within_employing {run : Run} (h : Names U run.definition) :
    (advancing run).Within (employing U) := by
  refine ⟨fun _ _ => trivial, fun c hc => ?_, fun _ hid => hid ▸ h⟩
  cases c with
  | create => exact hc.elim
  | moveTo | suspend | complete | fail | cancel | claimSuspended | release | claimStale => trivial

/-- What is in use are some of the definitions, and the runs are in order. -/
structure Employs (U : Definition → Prop) (ds : List Definition) (w : World σ) : Prop where
  definitions_eq : w.db.definitions = ds
  coherent : w.db.RunsCoherent
  runs : ∀ r ∈ w.db.runs, r.Rooted U
  graphs : ∀ p ∈ w.graphs, Names U p.1

/-- The definitions may change, if those in use stay what they are. -/
theorem Employs.revise {U' : Definition → Prop} {ds' : List Definition} {w w' : World σ}
    (h : Employs U ds w) (definitions_eq : w'.db.definitions = ds')
    (runs_eq : w'.db.runs = w.db.runs) (graphs_eq : w'.graphs = w.graphs)
    (kept : ∀ d, U d → ∃ d', U' d' ∧ d'.id = d.id ∧ d'.organization = d.organization) :
    Employs U' ds' w' := by
  refine ⟨definitions_eq, ?_, fun r hr => ?_, fun p hp => ?_⟩
  · exact (Database.Change.elsewhere w'.db runs_eq).runsCoherent h.coherent
  · obtain ⟨d, hd, hid, howner⟩ := h.runs r (runs_eq ▸ hr)
    obtain ⟨d', hd', hid', howner'⟩ := kept d hd
    exact ⟨d', hd', hid'.trans hid, howner'.trans howner⟩
  · obtain ⟨d, hd, hid⟩ := h.graphs p (graphs_eq ▸ hp)
    obtain ⟨d', hd', hid', -⟩ := kept d hd
    exact ⟨d', hd', hid'.trans hid⟩

/-- What is in use has left draft. -/
abbrev Uses (ds : List Definition) (w : World σ) : Prop := Employs (Definition.ReleasedIn ds) ds w

/-! ## Deeds -/

/-- Cancels by others leave the table of runs in order. -/
theorem Database.RunsCoherent.of_concedes {d d' : Database} (h : d.Concedes d')
    (hd : d.RunsCoherent) : d'.RunsCoherent := by
  obtain ⟨f, hf, hfr⟩ := h.runs
  have hkey : ∀ r, (f r).activeKey = r.activeKey ∨ (f r).activeKey = none := by
    intro r
    rcases hfr r with heq | ⟨-, time, heq⟩
    · exact Or.inl (by rw [heq])
    · exact Or.inr (by rw [heq]; rfl)
  refine ⟨fun r' hr' => ?_, ?_, ?_, fun r' hr' => ?_⟩
  · obtain ⟨r, hr, rfl | ⟨active, time, rfl⟩⟩ := h.exists_before hr'
    · exact hd.coherent r' hr
    · exact (Run.Write.cancel active).coherent (hd.coherent r hr)
  · rw [h.ids_eq]
    exact hd.ids
  · rw [hf]
    refine List.pairwise_map.2 (hd.slots.imp fun {a b} hab heq => ?_)
    rcases hkey a with ha | ha
    · rcases hkey b with hb | hb
      · rw [ha, hb] at heq
        exact ha.trans (hab heq)
      · exact heq.trans hb
    · exact ha
  · obtain ⟨r, hr, hc⟩ := h.exists_before hr'
    exact hc.definition_eq ▸ hd.named r hr

section Deeds

variable {env : Environment σ} {w w' : World σ} (named : ∀ d, U d → ':' ∉ d.id.toList)

include named

theorem Deed.employs (h : Deed env (.employing U) w w') (hw : Employs U ds w) :
    Employs U ds w' := by
  have hruns : ∀ d : Database, w.db.Concedes d → ∀ r ∈ d.runs, r.Rooted U := by
    intro d conceded r' hr'
    obtain ⟨r, hr, hc⟩ := conceded.exists_before hr'
    exact (hw.runs r hr).congr hc.definition_eq hc.organization_eq
  have htable : w'.db.RunsCoherent ∧ ∀ r ∈ w'.db.runs, r.Rooted U := by
    rcases h.database with conceded | ⟨d, c, conceded, ordered, now, hdb⟩ |
      ⟨d, r, conceded, -, hdb⟩
    · exact ⟨hw.coherent.of_concedes conceded, hruns _ conceded⟩
    · have hnamed : c.Named := by
        cases c with
        | create id d => exact named d ordered
        | moveTo | suspend | complete | fail | cancel | claimSuspended | release | claimStale =>
          trivial
      rw [hdb]
      refine ⟨(hw.coherent.of_concedes conceded).perform now hnamed, fun r' hr' => ?_⟩
      rcases c.exists_of_mem_perform hr' with
        ⟨r, hr, rfl | hwrite⟩ | ⟨id, d, contact, node, event, chainDepth, rfl, -, rfl⟩
      · exact hruns d conceded r' hr
      · exact (hruns d conceded r hr).congr hwrite.definition_eq hwrite.organization_eq
      · exact ⟨d, ordered, rfl, rfl⟩
    · obtain ⟨coherent, ids, slots, named⟩ := hw.coherent.of_concedes conceded
      rw [hdb]
      exact ⟨⟨coherent, ids, slots, named⟩, hruns d conceded⟩
  refine ⟨h.definitions_eq.trans hw.definitions_eq, htable.1, htable.2, ?_⟩
  cases h with
  | remember id g permitted =>
    intro p hp
    rcases List.mem_append.1 hp with hp | hp
    · exact hw.graphs p hp
    · exact List.mem_singleton.1 hp ▸ permitted
  | tick | name | draw | wait | interrupt | serve | turn | command | create | record =>
    exact hw.graphs

end Deeds

/-! ## Events and runs -/

namespace Engine

variable {env : Environment σ} (named : ∀ d, U d → ':' ∉ d.id.toList)

include named

/-- What goes by deeds of the remit uses the definitions that it may use. -/
theorem Does.stays_employs {α : Type} {x : Engine σ α} (hx : Does env (.employing U) x) :
    Stays (Deed env (.employing U)) (Employs U ds) x :=
  hx.stays fun _ _ hdeed => hdeed.employs named

/-- The triggers that are found are those of the definitions. -/
theorem leads_withTriggers_employs (l : List Definition) (hl : ∀ d ∈ l, U d) :
    Leads (Deed env (.employing U)) (Employs U ds) (withTriggers l)
      (fun found w => Employs U ds w ∧ ∀ p ∈ found, U p.1) (Employs U ds) := by
  induction l with
  | nil => exact .pure _ fun w hw => ⟨hw, by simp⟩
  | cons d l ih =>
    have hd := hl d List.mem_cons_self
    refine .bind (Does.stays_employs named (does_usableGraph d ⟨d, hd, rfl⟩)) fun g => ?_
    refine .bind (ih fun d hd => hl d (List.mem_cons_of_mem _ hd)) fun others => ?_
    split
    · refine .pure _ fun w hw => ⟨hw.1, fun p hp => ?_⟩
      rcases List.mem_cons.1 hp with rfl | hp
      · exact hd
      · exact hw.2 p hp
    · exact .pure _ fun w hw => hw

variable (published : ∀ d ∈ ds, d.status = .known .published → U d)

include published

theorem stays_matching_employs (e : Event) :
    Stays (Deed env (.employing U)) (Employs U ds) (matching env e) := by
  refine stays_inTurn _ _ (fun f => Does.stays_employs named (does_turns f)) ?_
  refine Leads.bind (B := fun found w => Employs U ds w ∧ ∀ p ∈ found, U p.1) ?_ fun found => ?_
  · refine .bind (leads_query (Does.stays_employs named (does_interrupt _ trivial)) _) fun l => ?_
    refine .assume (p := ∀ d ∈ l, U d) (fun w hw d hd => ?_) fun hl =>
      (leads_withTriggers_employs named l hl).pre fun w hw => hw.1
    rw [hw.2] at hd
    obtain ⟨hmem, hstatus⟩ := mem_publishedFor hd
    exact published d (hw.1.definitions_eq ▸ hmem) hstatus
  · refine .assume (fun w hw => hw.2) fun hfound => Leads.pre (Does.stays_employs named ?_)
      fun w hw => hw.1
    exact does_startRuns e trivial found _ fun p hp _ => hfound p hp

theorem serves_employs : Serves env (Deed env (.employing U)) (Employs U ds) where
  claiming hx _ := Does.stays_employs named (hx.mono Remit.claiming_within_employing)
  walking resuming run := .assume (p := Names U run.definition)
    (fun _ hw => (hw.1.runs run hw.2).names) fun hrun => Leads.pre (Does.stays_employs named
      ((does_walkRun run resuming).mono (Remit.advancing_within_employing hrun))) fun _ hw => hw.1
  matching e _ := stays_matching_employs named published e

theorem stays_startManually_employs {d : Definition} (hd : U d) (contact : String)
    (payload : Members) :
    Stays (Deed env (.employing U)) (Employs U ds) (startManually env d contact payload) :=
  (serves_employs named published).startManually
    (Does.stays_employs named (does_usableGraph d ⟨d, hd, rfl⟩))
    (fun _ _ _ => Does.stays_employs named (does_createRun d _ _ _ _ trivial fun _ => hd))
    contact payload

end Engine

end Employing

/-- Published definitions have left draft. -/
theorem Definition.releasedIn_of_published {d : Definition} (hd : d ∈ ds)
    (hstatus : d.status = .known .published) : d.ReleasedIn ds :=
  ⟨hd, by simp [hstatus]⟩

/-! ## Requests -/

/-- A request that starts no run of a draft by hand. -/
def Request.SparesDrafts (w : World σ) : Request → Prop
  | operate (.start id _ _) => ∀ d ∈ w.db.definitions, d.id = id → d.status ≠ .known .draft
  | _ => True

/-- A world to which requests lead from one without tables in which no graph was parsed, each of
them served by a host that makes up names without a colon. -/
inductive World.Attained : World σ → Prop where
  | empty {w : World σ} (tables : w.db = .empty) (unparsed : w.graphs = []) : Attained w
  | serve {w : World σ} (h : Attained w) (env : Environment σ)
    (named : ∀ id, env.host.NamesDefinition id → ':' ∉ id.toList) (q : Request)
    (spared : q.SparesDrafts w) : Attained (q.perform env w)

/-- The tables are in order, what is in use has left draft, and the graphs that were parsed are
those of their definitions. -/
structure Regular (w : World σ) : Prop where
  catalogued : w.db.Catalogued
  attempts : ∀ r ∈ w.db.records, 0 < r.attempt
  cached : ∀ p ∈ w.graphs, w.db.HasGraph p.1 p.2
  uses : Uses w.db.definitions w

namespace Regular

variable {env : Environment σ} {w w' : World σ}

theorem of_empty (hdb : w.db = .empty) (hgraphs : w.graphs = []) : Regular w := by
  refine ⟨Database.catalogued_of_definitions_eq_nil (by rw [hdb]; rfl), ?_, ?_, rfl, ?_, ?_, ?_⟩
  · simp [hdb, Database.empty]
  · simp [hgraphs]
  · exact Database.runsCoherent_of_runs_eq_nil (by rw [hdb]; rfl)
  · simp [hdb, Database.empty]
  · simp [hgraphs]

theorem kept (h : Regular w) : Kept w.db.HasGraph w.db.definitions w :=
  ⟨⟨h.uses.coherent.ids, h.attempts,
    fun _ hd _ hg => (Database.hasGraph_iff h.catalogued.ids hd).2 hg, h.cached⟩, rfl⟩

/-- The definitions stay the same, and so do their graphs. -/
theorem of_kept (h : Regular w) (hkept : Kept w.db.HasGraph w.db.definitions w')
    (huses : Uses w.db.definitions w') : Regular w' := by
  have hdefinitions : w'.db.definitions = w.db.definitions := hkept.2
  have hgraph : w'.db.HasGraph = w.db.HasGraph := by
    funext id g
    simp only [Database.HasGraph, Database.graph?, Database.definition?, hdefinitions]
  exact ⟨h.catalogued.congr hdefinitions, hkept.1.attempts, hgraph ▸ hkept.1.cached,
    hdefinitions.symm ▸ huses⟩

/-- What is left by a computation that goes by steps and uses what has left draft. -/
theorem of_goes {α : Type} {scope : Scope} {x : Engine σ α} (h : Regular w)
    (hgoes : Engine.Goes env w.db.HasGraph scope w.db.definitions x)
    (huses : Engine.Stays (Deed env (.employing (Definition.ReleasedIn w.db.definitions)))
      (Uses w.db.definitions) x) :
    Regular (x.run w).2 :=
  h.of_kept (Engine.stays_iff.1 hgoes w h.kept).2 (Engine.stays_iff.1 huses w h.uses).2

theorem named (h : Regular w) : ∀ d : Definition, d.ReleasedIn w.db.definitions →
    ':' ∉ d.id.toList :=
  fun d hd => h.catalogued.named d hd.1

theorem startManually (h : Regular w) {d : Definition} (hd : d ∈ w.db.definitions)
    (left : d.status ≠ .known .draft) (contact : String) (payload : Members) :
    Regular ((Engine.startManually env d contact payload).run w).2 := by
  have hgoes : Engine.Goes env w.db.HasGraph .free w.db.definitions
      (Engine.startManually env d contact payload) := Engine.goes_startManually hd contact payload
  exact h.of_goes hgoes (Engine.stays_startManually_employs h.named
    (fun _ => Definition.releasedIn_of_published) ⟨hd, left⟩ contact payload)

theorem perform_operation (h : Regular w) (o : Operation)
    (hstart : (Request.operate o).SparesDrafts w) : Regular (o.perform env w) := by
  have hother : (∀ id contact payload, o ≠ .start id contact payload) →
      Regular (o.perform env w) := by
    intro hne
    refine h.of_kept (o.keep_perform (I := fun _ => True) (fun _ _ _ _ => trivial)
      (fun _ _ _ _ _ => trivial) ⟨h.kept, trivial⟩).1 ?_
    have hserves : Engine.Serves env
        (Deed env (.employing (Definition.ReleasedIn w.db.definitions))) (Uses w.db.definitions) :=
      Engine.serves_employs h.named fun _ => Definition.releasedIn_of_published
    exact o.keep_of_serves hserves
      (fun _ _ _ heq => absurd heq (hne _ _ _)) (fun time => ⟨rfl, h.uses.2, h.uses.3, h.uses.4⟩)
      ⟨rfl, h.uses.2, h.uses.3, by simp⟩ h.uses
  cases o with
  | start id contact payload =>
    simp only [Operation.perform]
    split
    · rename_i d hd
      have hmem : d ∈ w.db.definitions := List.mem_of_find?_eq_some hd
      exact h.startManually hmem (hstart d hmem (by simpa using List.find?_some hd)) contact payload
    · exact h
  | event | advance | resume | sweep | sweepAt | recover | cancel | rest | restart =>
    exact hother fun _ _ _ heq => by cases heq

/-- Others may cancel runs. -/
theorem of_concedes (h : Regular w) (hdb : w.db.Concedes w'.db) (hgraphs : w'.graphs = w.graphs) :
    Regular w' := by
  refine h.of_kept ⟨⟨?_, ?_, ?_, hgraphs ▸ h.cached⟩, hdb.definitions_eq⟩
    ⟨hdb.definitions_eq, h.uses.coherent.of_concedes hdb, fun r' hr' => ?_, hgraphs ▸ h.uses.graphs⟩
  · rw [hdb.ids_eq]
    exact h.uses.coherent.ids
  · rw [hdb.records_eq]
    exact h.attempts
  · rw [hdb.definitions_eq]
    exact h.kept.1.stored
  · obtain ⟨r, hr, hc⟩ := hdb.exists_before hr'
    exact (h.uses.runs r hr).congr hc.definition_eq hc.organization_eq

/-- Workflows may be edited: what has left draft keeps its graph. -/
theorem revise {names : String → Prop} {db : Database} {now : Instant} (h : Regular w)
    (hnames : ∀ id, names id → ':' ∉ id.toList) (hdb : w.db.Revises names db) :
    Regular { w with clock := now, db := db } := by
  have hcatalogued : db.Catalogued := hdb.catalogued hnames h.catalogued
  refine ⟨hcatalogued, hdb.records_eq ▸ h.attempts, fun p hp => ?_,
    h.uses.revise rfl hdb.runs_eq rfl fun d hd => ?_⟩
  · obtain ⟨d, hd, hid, left⟩ := (h.uses.graphs p hp).released
    obtain ⟨d', hd', hid', -, -, hgraph⟩ := hdb.exists_kept hd left
    have hparse := (Database.hasGraph_iff h.catalogued.ids hd).1 (hid ▸ h.cached p hp)
    rw [← hid, ← hid', Database.hasGraph_iff hcatalogued.ids hd', hgraph, hparse]
  · obtain ⟨d', hd', hid, howner, left, -⟩ := hdb.exists_kept hd.1 hd.2
    exact ⟨d', ⟨hd', left⟩, hid, howner⟩

theorem of_act (hnames : ∀ id, env.host.NamesDefinition id → ':' ∉ id.toList)
    (hact : Act env .asking w w') (h : Regular w) : Regular w' := by
  cases hact with
  | edit db hdb => exact h.revise hnames hdb
  | deed hdeed =>
    refine h.of_concedes (hdeed.concedes (fun _ => False.elim) False.elim) ?_
    cases hdeed with
    | remember id g permitted => exact permitted.elim
    | tick | name | draw | wait | interrupt | serve | turn | command | create | record => rfl

theorem perform (hnames : ∀ id, env.host.NamesDefinition id → ':' ∉ id.toList) (q : Request)
    (hq : q.SparesDrafts w) (h : Regular w) : Regular (q.perform env w) := by
  cases q with
  | create | save | publish | archive =>
    refine (Request.path_of_isEdit _ ?_ h.catalogued.ids).keep (fun _ _ => of_act hnames) h
    trivial
  | trigger workflow organization contact payload =>
    simp only [Request.perform]
    split
    · rename_i d hd
      obtain ⟨hmem, -, -, hstatus⟩ := Database.published?_spec hd
      exact h.startManually hmem (by simp [hstatus]) contact payload
    · exact h
  | operate o => exact h.perform_operation o hq

end Regular

/-- Whatever was asked for, the world is regular. -/
theorem World.Attained.regular {w : World σ} (h : w.Attained) : Regular w := by
  induction h with
  | empty tables unparsed => exact .of_empty tables unparsed
  | serve _ env named q spared ih => exact ih.perform named q spared

end CrmAutomation
