import CrmAutomation.Engine.Workflows
import CrmAutomation.Proofs.Store.Lifecycle

/-!
# The life of a definition in the database

Workflows are created, edited, published and archived. `Definition.Becomes` says once what these may
do to a row, and `Database.Revises` that an edit does this to the rows that are there and adds at
most one, which is a draft.

So a definition that has left draft keeps its graph, whatever is edited afterwards
(`Database.Revises.exists_kept`). As only a graph without defects is published, it has a graph with
one trigger, and its column tells the type of event that this trigger listens to
(`Database.Catalogued`).
-/

namespace CrmAutomation

/-! ## Definitions -/

namespace Definition

/-- The graph of a definition has one trigger, which listens to events of a type. -/
structure Listens (d : Definition) (g : Graph) (trigger : Node) (type : String) : Prop where
  parsed : Graph.ofValue d.graph = .ok g
  trigger_eq : g.trigger? = some trigger
  config_eq : ∃ stage tag, trigger.config = .trigger type stage tag

/-- What an edit may make of a row. -/
inductive Becomes (d : Definition) : Definition → Prop where
  | stay : Becomes d d
  | edit (draft : d.status = .known .draft) (graph : Value) (name description : String)
    (now : Instant) :
    Becomes d { d with graph := graph, name := name, description := description, updatedAt := now }
  | publish (draft : d.status = .known .draft) {g : Graph}
    (sound : checkStructure d.graph = ⟨[], some g⟩) (now : Instant) :
    Becomes d
      { d with
        status := .known .published
        triggerType := (Engine.triggerName g).or d.triggerType
        publishedAt := some now
        updatedAt := now }
  | archive (published : d.status = .known .published) (now : Instant) :
    Becomes d { d with status := .known .archived, updatedAt := now }

namespace Becomes

variable {d d' : Definition}

theorem id_eq (h : d.Becomes d') : d'.id = d.id := by
  cases h <;> rfl

theorem organization_eq (h : d.Becomes d') : d'.organization = d.organization := by
  cases h <;> rfl

/-- What has left draft does not become one again, and its graph stays. -/
theorem kept (h : d.Becomes d') (left : d.status ≠ .known .draft) :
    d'.status ≠ .known .draft ∧ d'.graph = d.graph := by
  cases h with
  | stay => exact ⟨left, rfl⟩
  | archive => exact ⟨by simp, rfl⟩
  | edit draft | publish draft => exact absurd draft left

end Becomes

end Definition

/-! ## Graphs without defects -/

theorem Graph.exists_trigger_of_triggerDefects {g : Graph} (h : g.triggerDefects = []) :
    ∃ trigger type stage tag, g.trigger? = some trigger ∧
      trigger.config = .trigger type stage tag := by
  rw [triggerDefects] at h
  match htriggers : g.triggers with
  | [] => simp [htriggers] at h
  | t :: t' :: others => simp [htriggers] at h
  | [t] =>
    have ht : t ∈ g.triggers := by simp [htriggers]
    have htype : t.type = .trigger := by simpa using (List.mem_filter.1 ht).2
    rw [Node.type] at htype
    cases hconfig : t.config with
    | trigger type stage tag => exact ⟨t, type, stage, tag, by simp [trigger?, htriggers], hconfig⟩
    | sendEmail | moveStage | addTag | removeTag | webhook | delay | condition =>
      rw [hconfig] at htype
      cases htype

/-- A value that is no graph has a problem. -/
theorem Graph.ofValue_ne_error_nil (raw : Value) : Graph.ofValue raw ≠ .error [] := by
  intro h
  unfold ofValue at h
  split at h
  · split at h
    · dsimp only at h
      split at h
      · cases h
      · rename_i hne
        exact hne (Except.error.inj h)
    · cases h
  · cases h

/-- What has no structural defects is a graph. -/
theorem exists_of_isOk_checkStructure {raw : Value} (h : (checkStructure raw).isOk) :
    ∃ g, checkStructure raw = ⟨[], some g⟩ := by
  have hdefects : (checkStructure raw).defects = [] := List.isEmpty_iff.1 h
  cases hraw : Graph.ofValue raw with
  | error problems =>
    simp only [checkStructure, hraw, List.map_eq_nil_iff] at hdefects
    exact absurd (hdefects ▸ hraw) (Graph.ofValue_ne_error_nil raw)
  | ok g =>
    simp only [checkStructure, hraw] at hdefects ⊢
    exact ⟨g, by rw [hdefects]⟩

theorem isOk_of_checkStructure {raw : Value} {g : Graph} (h : checkStructure raw = ⟨[], some g⟩) :
    (checkStructure raw).isOk := by
  rw [h]
  rfl

theorem eq_of_checkStructure {raw : Value} {g g' : Graph} (h : checkStructure raw = ⟨[], some g⟩)
    (h' : checkStructure raw = ⟨[], some g'⟩) : g = g' := by
  simpa [h] using h'

/-- A value without structural defects is a graph with one trigger. -/
theorem exists_listens_of_checkStructure {d : Definition} {g : Graph}
    (h : checkStructure d.graph = ⟨[], some g⟩) :
    ∃ trigger type, d.Listens g trigger type ∧ Engine.triggerName g = some type := by
  rw [checkStructure] at h
  split at h
  · simp at h
  · rename_i g' hparse
    simp only [Validation.mk.injEq, Option.some.injEq] at h
    obtain ⟨hdefects, rfl⟩ := h
    have hnone : g'.triggerDefects = [] := by
      simp only [Graph.structuralDefects, List.append_eq_nil_iff] at hdefects
      exact hdefects.1.1.1.1
    obtain ⟨trigger, type, stage, tag, htrigger, hconfig⟩ :=
      Graph.exists_trigger_of_triggerDefects hnone
    refine ⟨trigger, type, ⟨hparse, htrigger, stage, tag, hconfig⟩, ?_⟩
    rw [Engine.triggerName, htrigger, Option.bind_some, hconfig]

/-! ## Edits -/

namespace Database

/-- What an edit may make of the table of definitions; new rows take some of the names. -/
structure Revises (names : String → Prop) (db db' : Database) : Prop where
  runs_eq : db'.runs = db.runs
  records_eq : db'.records = db.records
  definitions : ∃ (f : Definition → Definition) (new : List Definition),
    db'.definitions = db.definitions.map f ++ new ∧ (∀ d ∈ db.definitions, d.Becomes (f d)) ∧
    (new = [] ∨ ∃ d, new = [d] ∧ names d.id ∧ d.status = .known .draft ∧
      d.id ∉ db.definitions.map (·.id))

variable {names : String → Prop} {db db' : Database} {d read : Definition} {now : Instant}

/-- An edit that adds no row. -/
theorem Revises.of_map (f : Definition → Definition) (h : ∀ d ∈ db.definitions, d.Becomes (f d)) :
    Revises names db { db with definitions := db.definitions.map f } :=
  ⟨rfl, rfl, f, [], (List.append_nil _).symm, h, Or.inl rfl⟩

/-- What is added has a new id, and a new number among the versions of its workflow. -/
theorem insertDefinition_spec {new : Definition} (h : db.insertDefinition new = .ok (d, db')) :
    d = new ∧ db' = { db with definitions := db.definitions ++ [new] } ∧
      ∀ o ∈ db.definitions,
        o.id ≠ new.id ∧ (o.workflow = new.workflow → o.version ≠ new.version) := by
  rw [insertDefinition] at h
  split at h
  · cases h
  · split at h
    · cases h
    · rename_i taken
      cases h
      simp only [List.any_eq_true, Bool.or_eq_true, Bool.and_eq_true, beq_iff_eq, not_exists,
        not_and, not_or] at taken
      exact ⟨rfl, rfl, taken⟩

theorem revises_insertDefinition {o : Definition} (named : names o.id)
    (draft : o.status = .known .draft) (h : db.insertDefinition o = .ok (d, db')) :
    Revises names db db' := by
  obtain ⟨rfl, rfl, hfree⟩ := insertDefinition_spec h
  refine ⟨rfl, rfl, id, [d], by simp, fun d _ => .stay, Or.inr ⟨d, rfl, named, draft, ?_⟩⟩
  simpa using fun o ho => (hfree o ho).1

theorem revises_createWorkflow {workflow id organization name description : String} {graph : Value}
    {createdBy : Option String} (named : names id)
    (h : db.createWorkflow now workflow id organization name description graph createdBy =
      .ok (d, db')) : Revises names db db' :=
  revises_insertDefinition named rfl h

/-- The row of a definition is the only one with its id. -/
theorem eq_of_definition_id_eq (ids : (db.definitions.map (·.id)).Nodup) {a b : Definition}
    (ha : a ∈ db.definitions) (hb : b ∈ db.definitions) (h : a.id = b.id) : a = b :=
  List.inj_on_of_nodup_map ids ha hb h

/-- The row that was read becomes what it may, and the others stay. -/
theorem becomes_of_id_eq {change : Definition → Definition}
    (ids : (db.definitions.map (·.id)).Nodup) (hread : read ∈ db.definitions) (becomes : read.Becomes (change read)) :
    ∀ o ∈ db.definitions, o.Becomes (if o.id == read.id then change o else o) := by
  intro o ho
  split
  · rename_i hid
    obtain rfl := eq_of_definition_id_eq ids ho hread (by simpa using hid)
    exact becomes
  · exact .stay

theorem revises_writeDraft {id : String} {e : Edit} (ids : (db.definitions.map (·.id)).Nodup)
    (hread : read ∈ db.definitions) (named : names id)
    (h : db.writeDraft now id read e = .ok (d, db')) : Revises names db db' := by
  rw [writeDraft] at h
  split at h
  · rename_i draft
    obtain rfl : (db.editDraft now read e).2 = db' := congrArg Prod.snd (Except.ok.inj h)
    rw [editDraft]
    split
    · exact .of_map _ (becomes_of_id_eq ids hread (.edit draft _ _ _ now))
    · exact ⟨rfl, rfl, fun d => d, [], by simp, fun d _ => .stay, Or.inl rfl⟩
  · simp only [beginDraft, bind, Except.bind] at h
    split at h
    · cases h
    · exact revises_insertDefinition (o := { id := id, .. }) named rfl h

theorem published?_spec {workflow organization : String}
    (h : db.published? workflow organization = some d) :
    d ∈ db.definitions ∧ d.workflow = workflow ∧ d.organization = organization ∧
      d.status = .known .published := by
  have hfound := List.find?_some h
  simp only [Bool.and_eq_true, beq_iff_eq] at hfound
  exact ⟨List.mem_of_find?_eq_some h, hfound.1.1, hfound.1.2, hfound.2⟩

theorem revises_archive {workflow organization : String}
    (ids : (db.definitions.map (·.id)).Nodup)
    (h : db.archive now workflow organization = .ok (d, db')) : Revises names db db' := by
  rw [archive] at h
  split at h
  · cases h
  · rename_i previous hprevious
    obtain ⟨hmem, -, -, hstatus⟩ := published?_spec hprevious
    cases h
    exact .of_map _ (becomes_of_id_eq ids hmem (.archive hstatus now))

theorem revises_markPublished {g : Graph} (ids : (db.definitions.map (·.id)).Nodup)
    (hread : read ∈ db.definitions) (sound : checkStructure read.graph = ⟨[], some g⟩)
    (h : db.markPublished now read (Engine.triggerName g) = .ok (d, db')) :
    Revises names db db' := by
  rw [markPublished] at h
  split at h
  · cases h
  · rename_i draft
    replace draft : read.status = .known .draft := Classical.not_not.1 draft
    cases h
    have hpublish : ∀ o ∈ db.definitions, o.Becomes (if o.id == read.id then
        { o with
          status := .known .published
          triggerType := (Engine.triggerName g).or o.triggerType
          publishedAt := some now
          updatedAt := now } else o) :=
      becomes_of_id_eq ids hread (.publish draft sound now)
    split
    · rename_i previous hprevious
      obtain ⟨hmem, -, -, hstatus⟩ := published?_spec hprevious
      have hmaps : ∀ f f' : Definition → Definition,
          (db.definitions.map f).map f' = db.definitions.map fun o => f' (f o) := by simp
      simp only [updateDefinition, setStatus, hmaps]
      refine .of_map _ fun o ho => ?_
      by_cases hid : o.id = previous.id
      · obtain rfl := eq_of_definition_id_eq ids ho hmem hid
        have hne : o.id ≠ read.id := fun heq => by
          rw [eq_of_definition_id_eq ids ho hread heq, draft] at hstatus
          cases hstatus
        simpa [hne] using .archive hstatus now
      · simpa [hid] using hpublish o ho
    · exact .of_map _ hpublish

/-! ## What edits keep -/

/-- The definitions have ids of their own, which are named without a colon, and those that have
left draft have a graph with one trigger that listens to the type in their column. -/
structure Catalogued (db : Database) : Prop where
  ids : (db.definitions.map (·.id)).Nodup
  named : ∀ d ∈ db.definitions, ':' ∉ d.id.toList
  listens : ∀ d ∈ db.definitions, d.status ≠ .known .draft →
    ∃ g trigger type, d.Listens g trigger type ∧ d.triggerType = some type

theorem catalogued_of_definitions_eq_nil (h : db.definitions = []) : db.Catalogued := by
  constructor <;> simp [h]

theorem Revises.nodup_ids (h : Revises names db db') (ids : (db.definitions.map (·.id)).Nodup) :
    (db'.definitions.map (·.id)).Nodup := by
  obtain ⟨-, -, f, new, hdefinitions, hf, hnew⟩ := h
  have hids : (db.definitions.map f).map (·.id) = db.definitions.map (·.id) := by
    rw [List.map_map]
    exact List.map_congr_left fun d hd => (hf d hd).id_eq
  rw [hdefinitions, List.map_append, hids]
  rcases hnew with rfl | ⟨n, rfl, -, -, hfree⟩
  · simpa using ids
  · exact List.nodup_append.2 ⟨ids, by simp, fun a ha b hb heq =>
      hfree (by simp at hb; exact hb ▸ heq ▸ ha)⟩

theorem Catalogued.congr (h : db.Catalogued) (hdefinitions : db'.definitions = db.definitions) :
    db'.Catalogued := by
  obtain ⟨ids, named, listens⟩ := h
  constructor <;> rwa [hdefinitions]

theorem Revises.named (h : Revises names db db') (hnames : ∀ id, names id → ':' ∉ id.toList)
    (named : ∀ d ∈ db.definitions, ':' ∉ d.id.toList) :
    ∀ d ∈ db'.definitions, ':' ∉ d.id.toList := by
  obtain ⟨-, -, f, new, hdefinitions, hf, hnew⟩ := h
  intro d hd
  rw [hdefinitions, List.mem_append, List.mem_map] at hd
  rcases hd with ⟨o, ho, rfl⟩ | hd
  · exact (hf o ho).id_eq ▸ named o ho
  · rcases hnew with rfl | ⟨n, rfl, hname, -⟩
    · simp at hd
    · exact (List.mem_singleton.1 hd) ▸ hnames _ hname

theorem Revises.catalogued (h : Revises names db db') (hnames : ∀ id, names id → ':' ∉ id.toList)
    (hdb : db.Catalogued) : db'.Catalogued := by
  obtain ⟨ids, named, listens⟩ := hdb
  refine ⟨h.nodup_ids ids, h.named hnames named, ?_⟩
  obtain ⟨-, -, f, new, hdefinitions, hf, hnew⟩ := h
  intro d hd left
  rw [hdefinitions, List.mem_append, List.mem_map] at hd
  rcases hd with ⟨o, ho, rfl⟩ | hd
  · generalize hbecome : f o = o' at left
    have hbecomes := hbecome ▸ hf o ho
    cases hbecomes with
    | stay => exact listens o ho left
    | edit draft => exact absurd draft left
    | publish draft sound now =>
      obtain ⟨trigger, type, hlistens, hname⟩ := exists_listens_of_checkStructure sound
      exact ⟨_, trigger, type, ⟨hlistens.parsed, hlistens.trigger_eq, hlistens.config_eq⟩,
        by rw [hname, Option.some_or]⟩
    | archive published now =>
      obtain ⟨g, trigger, type, hlistens, htype⟩ := listens o ho (by simp [published])
      exact ⟨g, trigger, type, ⟨hlistens.parsed, hlistens.trigger_eq, hlistens.config_eq⟩, htype⟩
  · rcases hnew with rfl | ⟨n, rfl, -, draft, -⟩
    · simp at hd
    · exact absurd (List.mem_singleton.1 hd ▸ draft) left

/-- A definition is still there, of the same organization. -/
theorem Revises.exists_stays (h : Revises names db db') (hd : d ∈ db.definitions) :
    ∃ d' ∈ db'.definitions, d'.id = d.id ∧ d'.organization = d.organization := by
  obtain ⟨-, -, f, new, hdefinitions, hf, -⟩ := h
  exact ⟨f d, hdefinitions ▸ List.mem_append_left _ (List.mem_map_of_mem hd), (hf d hd).id_eq,
    (hf d hd).organization_eq⟩

/-- A definition that has left draft is still there, with its graph. -/
theorem Revises.exists_kept (h : Revises names db db') (hd : d ∈ db.definitions)
    (left : d.status ≠ .known .draft) :
    ∃ d' ∈ db'.definitions, d'.id = d.id ∧ d'.organization = d.organization ∧
      d'.status ≠ .known .draft ∧ d'.graph = d.graph := by
  obtain ⟨-, -, f, new, hdefinitions, hf, -⟩ := h
  exact ⟨f d, hdefinitions ▸ List.mem_append_left _ (List.mem_map_of_mem hd), (hf d hd).id_eq,
    (hf d hd).organization_eq, (hf d hd).kept left⟩

end Database

end CrmAutomation
