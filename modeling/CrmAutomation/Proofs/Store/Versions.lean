import CrmAutomation.Proofs.Store.Publishing

/-!
# The versions of workflows

What the table of definitions is at any time, as long as it is changed by the commands that edit
workflows only (`Versioned`). The versions of a workflow are numbered from one on, without gaps, and
belong to one organization; only the last of them may be a draft, at most one is published, and
what is no draft has a graph without structural defects and tells the type of event that it listens
to.

A command adds a draft behind the last version or lets the rows become what they may (`Edits`), and
this keeps the table in order (`Versioned.edits`). What each command does is told by
`edits_createWorkflow`, `edits_writeDraft`, `edits_archive` and `markPublished_eq`. A row that has
left draft is still there after any number of edits, and only its status has changed, from
published to archived (`Edits.exists_lasts`).
-/

namespace CrmAutomation

variable {ds ds' : List Definition} {d o read : Definition} {now : Instant}

/-! ## Rows that have left draft -/

namespace Definition

/-- The graph has no structural defect, and the column tells what its trigger listens to. -/
def Valid (d : Definition) : Prop :=
  ∃ g type, checkStructure d.graph = ⟨[], some g⟩ ∧ Engine.triggerName g = some type ∧
    d.triggerType = some type

/-- A row that is the same version still, and at most was archived since. -/
structure Lasts (d d' : Definition) : Prop where
  id_eq : d'.id = d.id
  workflow_eq : d'.workflow = d.workflow
  organization_eq : d'.organization = d.organization
  version_eq : d'.version = d.version
  graph_eq : d'.graph = d.graph
  name_eq : d'.name = d.name
  description_eq : d'.description = d.description
  triggerType_eq : d'.triggerType = d.triggerType
  publishedAt_eq : d'.publishedAt = d.publishedAt
  status : d'.status = d.status ∨ d.status = .known .published ∧ d'.status = .known .archived

theorem Lasts.refl (d : Definition) : d.Lasts d :=
  ⟨rfl, rfl, rfl, rfl, rfl, rfl, rfl, rfl, rfl, Or.inl rfl⟩

theorem Lasts.trans {d d' d'' : Definition} (h : d.Lasts d') (h' : d'.Lasts d'') :
    d.Lasts d'' := by
  refine ⟨h'.id_eq.trans h.id_eq, h'.workflow_eq.trans h.workflow_eq,
    h'.organization_eq.trans h.organization_eq, h'.version_eq.trans h.version_eq,
    h'.graph_eq.trans h.graph_eq, h'.name_eq.trans h.name_eq,
    h'.description_eq.trans h.description_eq, h'.triggerType_eq.trans h.triggerType_eq,
    h'.publishedAt_eq.trans h.publishedAt_eq, ?_⟩
  rcases h'.status with heq | ⟨hpublished, harchived⟩
  · rw [heq]
    exact h.status
  · rcases h.status with heq | ⟨-, heq⟩
    · exact Or.inr ⟨heq ▸ hpublished, harchived⟩
    · simp [heq] at hpublished

/-- What has left draft does not become one again. -/
theorem Lasts.left {d' : Definition} (h : d.Lasts d') (left : d.status ≠ .known .draft) :
    d'.status ≠ .known .draft := by
  rcases h.status with heq | ⟨-, heq⟩
  · rwa [heq]
  · simp [heq]

namespace Becomes

variable {d' : Definition}

theorem workflow_eq (h : d.Becomes d') : d'.workflow = d.workflow := by
  cases h <;> rfl

theorem version_eq (h : d.Becomes d') : d'.version = d.version := by
  cases h <;> rfl

theorem draft_of_draft (h : d.Becomes d') (draft : d'.status = .known .draft) :
    d.status = .known .draft := by
  cases h with
  | stay => exact draft
  | edit hdraft => exact hdraft
  | publish hdraft => exact hdraft
  | archive => cases draft

theorem lasts (h : d.Becomes d') (left : d.status ≠ .known .draft) : d.Lasts d' := by
  cases h with
  | stay => exact .refl d
  | archive published =>
    exact ⟨rfl, rfl, rfl, rfl, rfl, rfl, rfl, rfl, rfl, Or.inr ⟨published, rfl⟩⟩
  | edit draft | publish draft => exact absurd draft left

theorem exists_known (h : d.Becomes d') (staged : ∃ s, d.status = .known s) :
    ∃ s, d'.status = .known s := by
  cases h with
  | stay => exact staged
  | edit => exact staged
  | publish => exact ⟨_, rfl⟩
  | archive => exact ⟨_, rfl⟩

theorem valid (h : d.Becomes d') (hd : d.status ≠ .known .draft → d.Valid)
    (left : d'.status ≠ .known .draft) : d'.Valid := by
  cases h with
  | stay => exact hd left
  | edit draft => exact absurd draft left
  | publish draft sound =>
    obtain ⟨trigger, type, -, hname⟩ := exists_listens_of_checkStructure sound
    exact ⟨_, type, sound, hname, by rw [hname, Option.some_or]⟩
  | archive published => exact hd (by simp [published])

end Becomes

end Definition

/-! ## The table of definitions -/

/-- The numbers of the versions of a workflow, in the order in which these were written. -/
def versionsOf (ds : List Definition) (workflow : String) : List Int :=
  (ds.filter fun d => d.workflow == workflow).map (·.version)

/-- The first `n` numbers, beginning with one. -/
def firstNumbers (n : Nat) : List Int := (List.range n).map fun i : Nat => (i : Int) + 1

/-- The table of definitions is in order. -/
structure Versioned (ds : List Definition) : Prop where
  ids : (ds.map (·.id)).Nodup
  numbered : ∀ workflow, ∃ n, versionsOf ds workflow = firstNumbers n
  owned : ∀ a ∈ ds, ∀ b ∈ ds, a.workflow = b.workflow → a.organization = b.organization
  draft_last : ∀ d ∈ ds, d.status = .known .draft →
    ∀ o ∈ ds, o.workflow = d.workflow → o.version ≤ d.version
  one_published : ∀ a ∈ ds, ∀ b ∈ ds, a.workflow = b.workflow → a.status = .known .published →
    b.status = .known .published → a = b
  staged : ∀ d ∈ ds, ∃ s, d.status = .known s
  valid : ∀ d ∈ ds, d.status ≠ .known .draft → d.Valid

/-- The last version of its workflow. -/
structure Newest (ds : List Definition) (d : Definition) : Prop where
  mem : d ∈ ds
  last : ∀ o ∈ ds, o.workflow = d.workflow → o.version ≤ d.version

theorem versioned_nil : Versioned [] := by
  constructor
  · exact List.nodup_nil
  · exact fun workflow => ⟨0, rfl⟩
  all_goals simp

@[simp] theorem mem_firstNumbers {n : Nat} {i : Int} : i ∈ firstNumbers n ↔ 1 ≤ i ∧ i ≤ n := by
  simp only [firstNumbers, List.mem_map, List.mem_range]
  constructor
  · rintro ⟨k, hk, rfl⟩
    omega
  · rintro ⟨hlow, hhigh⟩
    exact ⟨i.toNat - 1, by omega, by omega⟩

theorem firstNumbers_succ (n : Nat) : firstNumbers (n + 1) = firstNumbers n ++ [(n : Int) + 1] := by
  simp [firstNumbers, List.range_succ]

theorem nodup_firstNumbers (n : Nat) : (firstNumbers n).Nodup :=
  List.nodup_range.map fun a b (h : (a : Int) + 1 = b + 1) => by omega

theorem mem_versionsOf {workflow : String} {i : Int} :
    i ∈ versionsOf ds workflow ↔ ∃ d ∈ ds, d.workflow = workflow ∧ d.version = i := by
  simp only [versionsOf, List.mem_map, List.mem_filter, beq_iff_eq, and_assoc]

theorem versionsOf_eq_nil (h : ∀ o ∈ ds, o.workflow ≠ d.workflow) :
    versionsOf ds d.workflow = [] := by
  rw [List.eq_nil_iff_forall_not_mem]
  intro i hi
  obtain ⟨o, ho, heq, -⟩ := mem_versionsOf.1 hi
  exact h o ho heq

namespace Versioned

variable (h : Versioned ds)

include h

/-- The versions of a workflow have different numbers. -/
theorem eq_of_version_eq {a b : Definition} (ha : a ∈ ds) (hb : b ∈ ds)
    (hworkflow : a.workflow = b.workflow) (hversion : a.version = b.version) : a = b := by
  obtain ⟨n, hn⟩ := h.numbered b.workflow
  have hdistinct : (versionsOf ds b.workflow).Nodup := hn ▸ nodup_firstNumbers n
  exact List.inj_on_of_nodup_map hdistinct (List.mem_filter.2 ⟨ha, by simp [hworkflow]⟩)
    (List.mem_filter.2 ⟨hb, by simp⟩) hversion

/-- A workflow without a first version has none. -/
theorem workflow_ne_of_first {workflow : String}
    (hfirst : ∀ o ∈ ds, o.workflow = workflow → o.version ≠ 1) :
    ∀ o ∈ ds, o.workflow ≠ workflow := by
  rintro o ho rfl
  obtain ⟨n, hn⟩ := h.numbered o.workflow
  have hmem : o.version ∈ firstNumbers n := hn ▸ mem_versionsOf.2 ⟨o, ho, rfl, rfl⟩
  rw [mem_firstNumbers] at hmem
  have hone : (1 : Int) ∈ versionsOf ds o.workflow := by
    rw [hn, mem_firstNumbers]
    omega
  obtain ⟨p, hp, hworkflow, hversion⟩ := mem_versionsOf.1 hone
  exact hfirst p hp hworkflow hversion

/-- The number of the last version is that of the versions. -/
theorem versionsOf_newest (hread : Newest ds read) :
    ∃ n : Nat, read.version = n ∧ versionsOf ds read.workflow = firstNumbers n := by
  obtain ⟨n, hn⟩ := h.numbered read.workflow
  have hmem : read.version ∈ firstNumbers n := hn ▸ mem_versionsOf.2 ⟨read, hread.mem, rfl, rfl⟩
  rw [mem_firstNumbers] at hmem
  have hlast : (n : Int) ∈ versionsOf ds read.workflow := by
    rw [hn, mem_firstNumbers]
    omega
  obtain ⟨p, hp, hworkflow, hversion⟩ := mem_versionsOf.1 hlast
  have hle := hread.last p hp hworkflow
  exact ⟨n, by omega, hn⟩

theorem newest_unique {a b : Definition} (ha : Newest ds a) (hb : Newest ds b)
    (hworkflow : a.workflow = b.workflow) : a = b :=
  h.eq_of_version_eq ha.mem hb.mem hworkflow
    (Int.le_antisymm (hb.last a ha.mem hworkflow) (ha.last b hb.mem hworkflow.symm))

/-- Behind a last version that is no draft there is none in its workflow. -/
theorem no_draft (hread : Newest ds read) (left : read.status ≠ .known .draft) (ho : o ∈ ds)
    (hworkflow : o.workflow = read.workflow) : o.status ≠ .known .draft := by
  intro draft
  have hnewest : Newest ds o := ⟨ho, h.draft_last o ho draft⟩
  exact left (h.newest_unique hnewest hread hworkflow ▸ draft)

end Versioned

/-! ## Edits -/

/-- What a command may make of the table of definitions. -/
inductive Edits (ds : List Definition) : List Definition → Prop where
  | revise (f : Definition → Definition) (becomes : ∀ d ∈ ds, d.Becomes (f d))
    (single : ∀ a ∈ ds, ∀ b ∈ ds, a.workflow = b.workflow → (f a).status = .known .published →
      (f b).status = .known .published → a = b) : Edits ds (ds.map f)
  | first {d : Definition} (fresh : ∀ o ∈ ds, o.id ≠ d.id) (draft : d.status = .known .draft)
    (version_eq : d.version = 1) (unheard : ∀ o ∈ ds, o.workflow ≠ d.workflow) :
    Edits ds (ds ++ [d])
  | next {d read : Definition} (fresh : ∀ o ∈ ds, o.id ≠ d.id) (draft : d.status = .known .draft)
    (newest : Newest ds read) (left : read.status ≠ .known .draft)
    (workflow_eq : d.workflow = read.workflow)
    (organization_eq : d.organization = read.organization)
    (version_eq : d.version = read.version + 1) : Edits ds (ds ++ [d])

namespace Edits

/-- The rows stay, and become what they may. -/
theorem exists_becomes (h : Edits ds ds') (hd : d ∈ ds) : ∃ d' ∈ ds', d.Becomes d' := by
  cases h with
  | revise f becomes => exact ⟨f d, List.mem_map_of_mem hd, becomes d hd⟩
  | first | next => exact ⟨d, List.mem_append_left _ hd, .stay⟩

/-- The rows were there before, unless they are drafts. -/
theorem exists_before (h : Edits ds ds') (hd : d ∈ ds') (left : d.status ≠ .known .draft) :
    ∃ o ∈ ds, o.Becomes d := by
  cases h with
  | revise f becomes =>
    obtain ⟨o, ho, rfl⟩ := List.mem_map.1 hd
    exact ⟨o, ho, becomes o ho⟩
  | first _ draft | next _ draft =>
    rcases List.mem_append.1 hd with hd | hd
    · exact ⟨d, hd, .stay⟩
    · exact absurd (List.mem_singleton.1 hd ▸ draft) left

/-- A row that has left draft lasts. -/
theorem exists_lasts (h : Edits ds ds') (hd : d ∈ ds) (left : d.status ≠ .known .draft) :
    ∃ d' ∈ ds', d.Lasts d' := by
  obtain ⟨d', hd', hbecomes⟩ := h.exists_becomes hd
  exact ⟨d', hd', hbecomes.lasts left⟩

/-- Nothing is edited. -/
theorem refl (h : Versioned ds) : Edits ds ds := by
  have hstay : Edits ds (ds.map fun d => d) :=
    .revise (fun d => d) (fun d _ => .stay) h.one_published
  rwa [List.map_id'] at hstay

end Edits

namespace Versioned

/-- Rows that become what they may stay in order, if no workflow has two published ones then. -/
theorem revise (h : Versioned ds) {f : Definition → Definition}
    (becomes : ∀ d ∈ ds, d.Becomes (f d))
    (single : ∀ a ∈ ds, ∀ b ∈ ds, a.workflow = b.workflow → (f a).status = .known .published →
      (f b).status = .known .published → a = b) : Versioned (ds.map f) := by
  have hids : (ds.map f).map (·.id) = ds.map (·.id) := by
    rw [List.map_map]
    exact List.map_congr_left fun d hd => (becomes d hd).id_eq
  have hversions : ∀ workflow, versionsOf (ds.map f) workflow = versionsOf ds workflow := by
    intro workflow
    have hfilter : ds.filter ((fun d => d.workflow == workflow) ∘ f) =
        ds.filter fun d => d.workflow == workflow :=
      List.filter_congr fun d hd => by rw [Function.comp_apply, (becomes d hd).workflow_eq]
    rw [versionsOf, List.filter_map, hfilter, List.map_map, versionsOf]
    exact List.map_congr_left fun d hd => (becomes d (List.mem_filter.1 hd).1).version_eq
  refine ⟨hids ▸ h.ids, fun workflow => hversions workflow ▸ h.numbered workflow,
    ?_, ?_, ?_, ?_, ?_⟩
    <;> simp only [List.forall_mem_map]
  · intro a ha b hb hworkflow
    rw [(becomes a ha).workflow_eq, (becomes b hb).workflow_eq] at hworkflow
    rw [(becomes a ha).organization_eq, (becomes b hb).organization_eq]
    exact h.owned a ha b hb hworkflow
  · intro d hd draft o ho hworkflow
    rw [(becomes d hd).workflow_eq, (becomes o ho).workflow_eq] at hworkflow
    rw [(becomes d hd).version_eq, (becomes o ho).version_eq]
    exact h.draft_last d hd ((becomes d hd).draft_of_draft draft) o ho hworkflow
  · intro a ha b hb hworkflow hpublished hpublished'
    rw [(becomes a ha).workflow_eq, (becomes b hb).workflow_eq] at hworkflow
    exact congrArg f (single a ha b hb hworkflow hpublished hpublished')
  · exact fun d hd => (becomes d hd).exists_known (h.staged d hd)
  · exact fun d hd => (becomes d hd).valid (h.valid d hd)

/-- A draft may be added behind the last version of a workflow. -/
theorem append (h : Versioned ds) (fresh : ∀ o ∈ ds, o.id ≠ d.id)
    (draft : d.status = .known .draft)
    (owned : ∀ o ∈ ds, o.workflow = d.workflow → o.organization = d.organization)
    (settled : ∀ o ∈ ds, o.workflow = d.workflow → o.status ≠ .known .draft)
    {n : Nat} (hn : versionsOf ds d.workflow = firstNumbers n) (hversion : d.version = n + 1) :
    Versioned (ds ++ [d]) := by
  have hlast : ∀ o ∈ ds, o.workflow = d.workflow → o.version ≤ d.version := by
    intro o ho hworkflow
    have hmem : o.version ∈ firstNumbers n := hn ▸ mem_versionsOf.2 ⟨o, ho, hworkflow, rfl⟩
    rw [mem_firstNumbers] at hmem
    omega
  constructor
  · rw [List.map_append, List.map_singleton]
    refine List.nodup_append.2 ⟨h.ids, List.nodup_singleton _, fun i hi j hj => ?_⟩
    obtain ⟨o, ho, rfl⟩ := List.mem_map.1 hi
    exact List.mem_singleton.1 hj ▸ fresh o ho
  · intro workflow
    by_cases hworkflow : d.workflow = workflow
    · subst hworkflow
      refine ⟨n + 1, ?_⟩
      rw [firstNumbers_succ, ← hn, ← hversion]
      simp [versionsOf]
    · obtain ⟨m, hm⟩ := h.numbered workflow
      exact ⟨m, by simp [← hm, versionsOf, hworkflow]⟩
  all_goals simp only [List.forall_mem_append, List.forall_mem_singleton]
  · exact ⟨fun a ha => ⟨h.owned a ha, owned a ha⟩,
      fun b hb hworkflow => (owned b hb hworkflow.symm).symm, fun _ => trivial⟩
  · refine ⟨fun o ho hdraft => ⟨h.draft_last o ho hdraft, fun hworkflow => ?_⟩, fun _ =>
      ⟨hlast, fun _ => Int.le_refl _⟩⟩
    exact absurd hdraft (settled o ho hworkflow.symm)
  · refine ⟨fun a ha => ⟨h.one_published a ha, fun _ _ hpublished => ?_⟩,
      fun b hb _ hpublished => ?_, fun _ _ _ => trivial⟩ <;>
    · rw [draft] at hpublished
      cases hpublished
  · exact ⟨h.staged, _, draft⟩
  · exact ⟨h.valid, fun left => absurd draft left⟩

/-- Edits keep the table in order. -/
theorem edits (h : Versioned ds) (hedits : Edits ds ds') : Versioned ds' := by
  cases hedits with
  | revise f becomes single => exact h.revise becomes single
  | first fresh draft version_eq unheard =>
    exact h.append fresh draft (fun o ho heq => absurd heq (unheard o ho))
      (fun o ho heq => absurd heq (unheard o ho)) (n := 0) (versionsOf_eq_nil unheard) version_eq
  | next fresh draft newest left workflow_eq organization_eq version_eq =>
    obtain ⟨n, hn, hversions⟩ := h.versionsOf_newest newest
    refine h.append fresh draft (fun o ho heq => ?_) (fun o ho heq => ?_)
      (workflow_eq ▸ hversions) (hn ▸ version_eq)
    · rw [organization_eq]
      exact h.owned o ho _ newest.mem (heq.trans workflow_eq)
    · exact h.no_draft newest left ho (heq.trans workflow_eq)

end Versioned

/-! ## Commands -/

namespace Database

variable {db db' : Database} {workflow organization : String}

/-- The versions of a workflow are told from the last one on. -/
theorem pairwise_versions (db : Database) (workflow organization : String) :
    (db.versions workflow organization).Pairwise fun a b => b.version ≤ a.version := by
  have htrans : ∀ a b c : Definition, decide (b.version ≤ a.version) →
      decide (c.version ≤ b.version) → decide (c.version ≤ a.version) := by
    simp only [decide_eq_true_eq]
    omega
  have htotal : ∀ a b : Definition,
      decide (b.version ≤ a.version) || decide (a.version ≤ b.version) := by
    simp only [Bool.or_eq_true, decide_eq_true_eq]
    omega
  exact (List.pairwise_mergeSort htrans htotal _).imp fun h => of_decide_eq_true h

theorem mem_versions : d ∈ db.versions workflow organization ↔
    d ∈ db.definitions ∧ d.workflow = workflow ∧ d.organization = organization := by
  rw [versions, List.mem_mergeSort, List.mem_filter, Bool.and_eq_true, beq_iff_eq, beq_iff_eq]

/-- The last version of a workflow is found by an organization that owns it. -/
theorem latest_eq_ok_iff (h : Versioned db.definitions) :
    db.latest workflow organization = .ok d ↔
      Newest db.definitions d ∧ d.workflow = workflow ∧ d.organization = organization := by
  have hsound : ∀ d, db.latest workflow organization = .ok d →
      Newest db.definitions d ∧ d.workflow = workflow ∧ d.organization = organization := by
    intro d hd
    simp only [latest] at hd
    split at hd
    · rename_i first rest hversions
      cases hd
      have hmem : d ∈ db.versions workflow organization := hversions ▸ List.mem_cons_self
      obtain ⟨hd, rfl, rfl⟩ := mem_versions.1 hmem
      refine ⟨⟨hd, fun o ho hworkflow => ?_⟩, rfl, rfl⟩
      have hother : o ∈ db.versions d.workflow d.organization :=
        mem_versions.2 ⟨ho, hworkflow, h.owned o ho d hd hworkflow⟩
      have hsorted := db.pairwise_versions d.workflow d.organization
      rw [hversions] at hother hsorted
      rcases List.mem_cons.1 hother with rfl | hother
      · exact Int.le_refl _
      · exact (List.pairwise_cons.1 hsorted).1 o hother
    · cases hd
  refine ⟨hsound d, ?_⟩
  rintro ⟨hnewest, hworkflow, horganization⟩
  have hmem : d ∈ db.versions workflow organization :=
    mem_versions.2 ⟨hnewest.mem, hworkflow, horganization⟩
  cases hlatest : db.latest workflow organization with
  | ok o =>
    obtain ⟨ho, howorkflow, -⟩ := hsound o hlatest
    rw [h.newest_unique ho hnewest (howorkflow.trans hworkflow.symm)]
  | error f =>
    simp only [latest] at hlatest
    split at hlatest
    · cases hlatest
    · rename_i hnone
      simp [hnone] at hmem

/-- A workflow that has no version in the organization is not found. -/
theorem latest_eq_error_iff {f : Failure} : db.latest workflow organization = .error f ↔
    f = .notFound ("Workflow " ++ workflow ++ " not found") ∧
      ∀ d ∈ db.definitions, d.workflow = workflow → d.organization ≠ organization := by
  have hnone : db.versions workflow organization = [] ↔
      ∀ d ∈ db.definitions, d.workflow = workflow → d.organization ≠ organization := by
    simp only [List.eq_nil_iff_forall_not_mem, mem_versions, not_and, ne_eq]
  rw [← hnone, latest]
  split
  · rename_i hversions
    simp [hversions]
  · rename_i hversions
    simp [hversions, eq_comm]

theorem edits_createWorkflow {id name description : String} {graph : Value}
    {createdBy : Option String} (versioned : Versioned db.definitions)
    (h : db.createWorkflow now workflow id organization name description graph createdBy =
      .ok (d, db')) : Edits db.definitions db'.definitions := by
  obtain ⟨rfl, rfl, hfree⟩ := insertDefinition_spec h
  exact .first (fun o ho => (hfree o ho).1) rfl rfl
    (versioned.workflow_ne_of_first fun o ho => (hfree o ho).2)

/-- One row is edited, by which none is published. -/
theorem edits_updateDefinition {change : Definition → Definition}
    (versioned : Versioned db.definitions) (hread : read ∈ db.definitions)
    (becomes : read.Becomes (change read))
    (unpublished : (change read).status = .known .published → read.status = .known .published) :
    Edits db.definitions (db.updateDefinition read.id change).definitions := by
  have hpublished : ∀ o ∈ db.definitions,
      (if o.id == read.id then change o else o).status = .known .published →
        o.status = .known .published := by
    intro o ho hstatus
    split at hstatus
    · rename_i hid
      obtain rfl := eq_of_definition_id_eq versioned.ids ho hread (by simpa using hid)
      exact unpublished hstatus
    · exact hstatus
  exact .revise _ (becomes_of_id_eq versioned.ids hread becomes)
    fun a ha b hb hworkflow hstatus hstatus' =>
      versioned.one_published a ha b hb hworkflow (hpublished a ha hstatus)
        (hpublished b hb hstatus')

theorem edits_writeDraft {id : String} {e : Edit} (versioned : Versioned db.definitions)
    (newest : Newest db.definitions read) (h : db.writeDraft now id read e = .ok (d, db')) :
    Edits db.definitions db'.definitions := by
  rw [writeDraft] at h
  split at h
  · rename_i draft
    obtain rfl : (db.editDraft now read e).2 = db' := congrArg Prod.snd (Except.ok.inj h)
    rw [editDraft]
    split
    · exact edits_updateDefinition versioned newest.mem (.edit draft _ _ _ now)
        fun hstatus => hstatus
    · exact .refl versioned
  · rename_i left
    simp only [beginDraft, bind, Except.bind] at h
    split at h
    · cases h
    · obtain ⟨rfl, rfl, hfree⟩ := insertDefinition_spec h
      exact .next (fun o ho => (hfree o ho).1) rfl newest left rfl rfl rfl

theorem edits_archive (versioned : Versioned db.definitions)
    (h : db.archive now workflow organization = .ok (d, db')) :
    Edits db.definitions db'.definitions := by
  rw [archive] at h
  split at h
  · cases h
  · rename_i previous hprevious
    obtain ⟨hmem, -, -, hstatus⟩ := published?_spec hprevious
    cases h
    exact edits_updateDefinition versioned hmem (.archive hstatus now) fun _ => hstatus

end Database

/-! ## Publishing -/

namespace Definition

/-- A draft that is published. -/
def released (now : Instant) (type : String) (d : Definition) : Definition :=
  { d with
    status := .known .published
    triggerType := some type
    publishedAt := some now
    updatedAt := now }

/-- A published version that is archived. -/
def retired (now : Instant) (d : Definition) : Definition :=
  { d with status := .known .archived, updatedAt := now }

/-- What becomes of a row where a draft is published: the draft is, and the version of the workflow
that was published before is archived. -/
def publishing (now : Instant) (draft : Definition) (type : String) (d : Definition) : Definition :=
  if d.id = draft.id then d.released now type
  else if d.workflow = draft.workflow ∧ d.status = .known .published then d.retired now
  else d

@[simp] theorem publishing_id (draft : Definition) (type : String) (d : Definition) :
    (publishing now draft type d).id = d.id := by
  unfold publishing
  split
  · rfl
  · split <;> rfl

end Definition

namespace Database

variable {db : Database}

/-- The published version of a workflow is found by the organization that owns it. -/
theorem published?_eq_some_iff (h : Versioned db.definitions) (hread : read ∈ db.definitions) :
    db.published? read.workflow read.organization = some d ↔
      d ∈ db.definitions ∧ d.workflow = read.workflow ∧ d.status = .known .published := by
  constructor
  · intro hd
    obtain ⟨hmem, hworkflow, -, hstatus⟩ := published?_spec hd
    exact ⟨hmem, hworkflow, hstatus⟩
  · rintro ⟨hmem, hworkflow, hstatus⟩
    have hsome : (db.published? read.workflow read.organization).isSome :=
      List.find?_isSome.2 ⟨d, hmem, by
        simp [hworkflow, hstatus, h.owned d hmem read hread hworkflow]⟩
    obtain ⟨o, ho⟩ := Option.isSome_iff_exists.1 hsome
    obtain ⟨homem, howorkflow, -, hostatus⟩ := published?_spec ho
    rwa [h.one_published d hmem o homem (hworkflow.trans howorkflow.symm) hstatus hostatus]

/-- Publishing a draft changes its row, and that of the version published before. -/
theorem markPublished_eq (h : Versioned db.definitions) (hread : read ∈ db.definitions)
    (draft : read.status = .known .draft) (now : Instant) (type : String) :
    db.markPublished now read (some type) = .ok (read.released now type,
      { db with definitions := db.definitions.map (Definition.publishing now read type) }) := by
  have hids : ((db.definitions.map (Definition.publishing now read type)).map (·.id)).Nodup := by
    simpa [Function.comp_def] using h.ids
  have hreleased : read.released now type ∈
      db.definitions.map (Definition.publishing now read type) :=
    List.mem_map.2 ⟨read, hread, if_pos rfl⟩
  have hreread : ∀ after : Database,
      after = { db with definitions := db.definitions.map (Definition.publishing now read type) } →
      (after.reread read, after) = (read.released now type,
        { db with definitions := db.definitions.map (Definition.publishing now read type) }) := by
    rintro _ rfl
    have hfound := find?_key hids hreleased
    exact congrArg (fun o => (Option.getD o read, _)) hfound
  rw [markPublished, if_neg (not_not.2 draft)]
  refine congrArg Except.ok (hreread _ ?_)
  split
  · rename_i previous hprevious
    obtain ⟨hmem, hworkflow, hstatus⟩ := (published?_eq_some_iff h hread).1 hprevious
    simp only [setStatus, updateDefinition, List.map_map, Database.mk.injEq, and_true]
    refine List.map_congr_left fun d hd => ?_
    simp only [Function.comp_apply, beq_iff_eq, Definition.publishing]
    by_cases hid : d.id = previous.id
    · obtain rfl := eq_of_definition_id_eq h.ids hd hmem hid
      have hne : d.id ≠ read.id := by
        intro heq
        rw [eq_of_definition_id_eq h.ids hd hread heq, draft] at hstatus
        cases hstatus
      simp [hne, hworkflow, hstatus, Definition.retired]
    · have hother : ¬(d.workflow = read.workflow ∧ d.status = .known .published) := by
        rintro ⟨hdworkflow, hdstatus⟩
        exact hid (congrArg (·.id) (h.one_published d hd previous hmem
          (hdworkflow.trans hworkflow.symm) hdstatus hstatus))
      simp [hid, hother, Definition.released]
  · rename_i hnone
    simp only [updateDefinition, Database.mk.injEq, and_true]
    refine List.map_congr_left fun d hd => ?_
    have hother : ¬(d.workflow = read.workflow ∧ d.status = .known .published) := by
      intro hpublished
      have hsome := (published?_eq_some_iff h hread).2 ⟨hd, hpublished⟩
      rw [hnone] at hsome
      cases hsome
    simp [Definition.publishing, hother, Definition.released]

theorem edits_publishing (h : Versioned db.definitions) (hread : read ∈ db.definitions)
    (draft : read.status = .known .draft) {g : Graph} {type : String}
    (sound : checkStructure read.graph = ⟨[], some g⟩) (hname : Engine.triggerName g = some type)
    (now : Instant) :
    Edits db.definitions (db.definitions.map (Definition.publishing now read type)) := by
  have hrow : ∀ o ∈ db.definitions, o.id = read.id → o = read := fun o ho =>
    eq_of_definition_id_eq h.ids ho hread
  refine .revise _ (fun o ho => ?_) fun a ha b hb hworkflow hstatus hstatus' => ?_
  · unfold Definition.publishing
    split
    · rename_i hid
      obtain rfl := hrow o ho hid
      have hpublish := Definition.Becomes.publish draft sound now
      rwa [hname, Option.some_or] at hpublish
    · split
      · rename_i hpublished
        exact .archive hpublished.2 now
      · exact .stay
  · have hpublished : ∀ o ∈ db.definitions,
        (Definition.publishing now read type o).status = .known .published →
          o = read ∨ o.workflow ≠ read.workflow ∧ o.status = .known .published := by
      intro o ho hstatus
      unfold Definition.publishing at hstatus
      split at hstatus
      · exact Or.inl (hrow o ho ‹_›)
      · split at hstatus
        · cases hstatus
        · rename_i hnot
          exact Or.inr ⟨fun heq => hnot ⟨heq, hstatus⟩, hstatus⟩
    rcases hpublished a ha hstatus with rfl | ⟨hne, ha'⟩
    · rcases hpublished b hb hstatus' with rfl | ⟨hne, -⟩
      · rfl
      · exact absurd hworkflow.symm hne
    · rcases hpublished b hb hstatus' with rfl | ⟨-, hb'⟩
      · exact absurd hworkflow hne
      · exact h.one_published a ha b hb hworkflow ha' hb'

end Database

end CrmAutomation
