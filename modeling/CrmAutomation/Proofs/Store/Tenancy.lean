import CrmAutomation.Engine.Monad
import CrmAutomation.Proofs.Store.Lifecycle
import CrmAutomation.Store.Definitions
import CrmAutomation.Store.Trail
import Mathlib.Data.List.Find

/-!
# The rows of an organization

The rows of one organization are its definitions, its runs, and the records of its runs
(`Database.ownedBy`); the others' are `Database.besides`. Not every query is filtered by the
organization: a run is found by its id, a record by its run, and the newest versions by workflow
and version. But where the ids and workflows of an organization are none of the others' (`Apart`),
every query that is made for it finds what it finds in its own rows, and every write for it does to
its own rows what it would do if there were no others, and nothing to theirs (`Tracks`).
-/

namespace CrmAutomation

/-! ## Lists in part -/

section Lists

variable {α : Type} {p q : α → Bool} {l : List α}

/-- A search that only some rows can pass is the same among them. -/
theorem find?_filter_of_imp (h : ∀ a ∈ l, q a → p a) : (l.filter p).find? q = l.find? q := by
  rw [List.find?_filter]
  refine List.find?_congr fun a ha => ?_
  by_cases hq : q a
  · simp [hq, h a ha hq]
  · simp [hq]

theorem filter_filter_of_imp (h : ∀ a ∈ l, q a → p a) : (l.filter p).filter q = l.filter q := by
  rw [List.filter_filter]
  refine List.filter_congr fun a ha => ?_
  by_cases hq : q a
  · simp [hq, h a ha hq]
  · simp [hq]

theorem any_filter_of_imp (h : ∀ a ∈ l, q a → p a) : (l.filter p).any q = l.any q := by
  rw [Bool.eq_iff_iff]
  simp only [List.any_eq_true, List.mem_filter]
  exact ⟨fun ⟨a, ha, hq⟩ => ⟨a, ha.1, hq⟩, fun ⟨a, ha, hq⟩ => ⟨a, ⟨ha, h a ha hq⟩, hq⟩⟩

/-- A change that no row fails or passes by is made in the part as in the whole. -/
theorem filter_map_of_eq {f : α → α} (h : ∀ a ∈ l, p (f a) = p a) :
    (l.map f).filter p = (l.filter p).map f := by
  rw [List.filter_map]
  exact congrArg _ (List.filter_congr h)

end Lists

namespace Database

variable {o : String} {db : Database}

/-! ## Parts -/

/-- Whether a record is one of a run of the organization. -/
def isRecordOf (db : Database) (o : String) (r : NodeRecord) : Bool :=
  db.runs.any fun run => run.id == r.run && run.organization == o

/-- The rows of an organization. -/
def ownedBy (db : Database) (o : String) : Database where
  definitions := db.definitions.filter fun d => d.organization == o
  runs := db.runs.filter fun r => r.organization == o
  records := db.records.filter (db.isRecordOf o)

/-- The rows of all others. -/
def besides (db : Database) (o : String) : Database where
  definitions := db.definitions.filter fun d => d.organization != o
  runs := db.runs.filter fun r => r.organization != o
  records := db.records.filter fun r => !db.isRecordOf o r

/-- The organization has a run with the id. -/
def HasRun (db : Database) (o id : String) : Prop := ∃ r ∈ (db.ownedBy o).runs, r.id = id

theorem hasRun_of_mem {r : Run} (hr : r ∈ db.runs) (howner : r.organization = o) :
    db.HasRun o r.id :=
  ⟨r, List.mem_filter.2 ⟨hr, by simp [howner]⟩, rfl⟩

theorem HasRun.isRecordOf {r : NodeRecord} (h : db.HasRun o r.run) : db.isRecordOf o r := by
  obtain ⟨run, hrun, hid⟩ := h
  obtain ⟨hmem, howner⟩ := List.mem_filter.1 hrun
  exact List.any_eq_true.2 ⟨run, hmem, by simp [hid, howner]⟩

/-! ## What others do not have -/

def LacksDefinition (db : Database) (id : String) : Prop := ∀ d ∈ db.definitions, d.id ≠ id

def LacksWorkflow (db : Database) (workflow : String) : Prop :=
  ∀ d ∈ db.definitions, d.workflow ≠ workflow

def LacksRun (db : Database) (id : String) : Prop := ∀ r ∈ db.runs, r.id ≠ id

/-- No record is one of the run. -/
def LacksTrail (db : Database) (run : String) : Prop := ∀ r ∈ db.records, r.run ≠ run

/-- No run is in the slot of a definition that is not there. -/
def Keyed (db : Database) : Prop :=
  ∀ r ∈ db.runs, ∀ id contact : String, ':' ∉ id.toList → db.LacksDefinition id →
    r.activeKey ≠ some (activeKeyOf id contact)

/-- All rows are rows of another database too. -/
structure Within (db db' : Database) : Prop where
  definitions : db.definitions ⊆ db'.definitions
  runs : db.runs ⊆ db'.runs
  records : db.records ⊆ db'.records

end Database

/-- A definition of the organization that cannot be taken for one of the others'. -/
structure Definition.Own (others : Database) (o : String) (d : Definition) : Prop where
  organization_eq : d.organization = o
  named : ':' ∉ d.id.toList
  definition : others.LacksDefinition d.id
  workflow : others.LacksWorkflow d.workflow

/-- A run of the organization that cannot be taken for one of the others', nor its definition. -/
structure Run.Own (others : Database) (o : String) (r : Run) : Prop where
  organization_eq : r.organization = o
  run : others.LacksRun r.id
  definition : others.LacksDefinition r.definition

namespace Database

variable {others rest : Database} {o : String} {db : Database}

/-- A database that has `rest` besides what an organization has, none of which can be taken for a
row of `others`, where `rest` is. -/
structure Apart (others rest : Database) (o : String) (db : Database) : Prop where
  besides_eq : db.besides o = rest
  within : rest.Within others
  keyed : others.Keyed
  definitions : ∀ d ∈ db.definitions, d.organization = o → d.Own others o
  runs : ∀ r ∈ db.runs, r.organization = o → r.Own others o

namespace Apart

theorem definition_mem (h : Apart others rest o db) {d : Definition} (hd : d ∈ db.definitions)
    (hother : d.organization ≠ o) : d ∈ others.definitions :=
  h.within.definitions (h.besides_eq ▸ List.mem_filter.2 ⟨hd, by simpa using hother⟩)

theorem run_mem (h : Apart others rest o db) {r : Run} (hr : r ∈ db.runs)
    (hother : r.organization ≠ o) : r ∈ others.runs :=
  h.within.runs (h.besides_eq ▸ List.mem_filter.2 ⟨hr, by simpa using hother⟩)

theorem record_mem (h : Apart others rest o db) {r : NodeRecord} (hr : r ∈ db.records)
    (hother : ¬db.isRecordOf o r) : r ∈ others.records :=
  h.within.records (h.besides_eq ▸ List.mem_filter.2 ⟨hr, by simpa using hother⟩)

theorem organization_eq_of_run (h : Apart others rest o db) {id : String}
    (lacks : others.LacksRun id) {r : Run} (hr : r ∈ db.runs) (hid : r.id = id) :
    r.organization = o :=
  not_not.1 fun hother => lacks r (h.run_mem hr hother) hid

theorem organization_eq_of_definition (h : Apart others rest o db) {id : String}
    (lacks : others.LacksDefinition id) {d : Definition} (hd : d ∈ db.definitions)
    (hid : d.id = id) : d.organization = o :=
  not_not.1 fun hother => lacks d (h.definition_mem hd hother) hid

theorem own_of_hasRun (h : Apart others rest o db) {id : String} (hrun : db.HasRun o id) :
    others.LacksRun id := by
  obtain ⟨r, hr, rfl⟩ := hrun
  obtain ⟨hmem, howner⟩ := List.mem_filter.1 hr
  exact (h.runs r hmem (by simpa using howner)).run

end Apart

/-! ## Queries -/

section Queries

theorem versions_ownedBy (db : Database) (workflow o : String) :
    (db.ownedBy o).versions workflow o = db.versions workflow o := by
  unfold versions ownedBy
  rw [filter_filter_of_imp fun d _ hd => ?_]
  simp only [Bool.and_eq_true] at hd
  exact hd.2

theorem latest_ownedBy (db : Database) (workflow o : String) :
    (db.ownedBy o).latest workflow o = db.latest workflow o := by
  unfold latest
  rw [versions_ownedBy]

theorem published?_ownedBy (db : Database) (workflow o : String) :
    (db.ownedBy o).published? workflow o = db.published? workflow o := by
  unfold published? ownedBy
  rw [find?_filter_of_imp fun d _ hd => ?_]
  simp only [Bool.and_eq_true] at hd
  exact hd.1.2

theorem publishedFor_ownedBy (db : Database) (o type : String) :
    (db.ownedBy o).publishedFor o type = db.publishedFor o type := by
  unfold publishedFor ownedBy
  dsimp only
  rw [filter_filter_of_imp fun d _ hd => ?_]
  simp only [Bool.and_eq_true] at hd
  exact hd.1.1

theorem listRuns_ownedBy (db : Database) (o : String) (f : RunFilter) (offset limit : Int) :
    listRuns o f offset limit (db.ownedBy o) = listRuns o f offset limit db := by
  unfold listRuns ownedBy
  dsimp only
  rw [filter_filter_of_imp fun r _ hr => ?_]
  exact (Bool.and_eq_true _ _ ▸ hr).1

theorem runOf_ownedBy (db : Database) (o id : String) :
    runOf o id (db.ownedBy o) = runOf o id db := by
  unfold runOf ownedBy
  rw [find?_filter_of_imp fun r _ hr => ?_]
  exact (Bool.and_eq_true _ _ ▸ hr).2

theorem Apart.run?_ownedBy (h : Apart others rest o db) {id : String}
    (lacks : others.LacksRun id) : (db.ownedBy o).run? id = db.run? id :=
  find?_filter_of_imp fun r hr hid => by
    simpa using h.organization_eq_of_run lacks hr (by simpa using hid)

theorem Apart.definition?_ownedBy (h : Apart others rest o db) {id : String}
    (lacks : others.LacksDefinition id) : (db.ownedBy o).definition? id = db.definition? id :=
  find?_filter_of_imp fun d hd hid => by
    simpa using h.organization_eq_of_definition lacks hd (by simpa using hid)

theorem newestVersions_ownedBy (db : Database) (o : String) :
    (db.ownedBy o).newestVersions o = db.newestVersions o := by
  have hlatest : ∀ d : Definition, d.organization = o →
      (db.ownedBy o).isLatest d = db.isLatest d := by
    intro d howner
    rw [Bool.eq_iff_iff]
    simp only [isLatest, ownedBy, List.all_eq_true, List.mem_filter, howner, Bool.or_eq_true,
      Bool.not_eq_true', Bool.and_eq_false_iff, beq_iff_eq, beq_eq_false_iff_ne]
    refine ⟨fun hall a ha => ?_, fun hall a ha => hall a ha.1⟩
    by_cases hother : a.organization = o
    · exact hall a ⟨ha, hother⟩
    · exact .inl (.inr hother)
  unfold newestVersions
  have hfilter : (db.ownedBy o).definitions.filter
        (fun d => d.organization == o && (db.ownedBy o).isLatest d) =
      db.definitions.filter fun d => d.organization == o && (db.ownedBy o).isLatest d :=
    filter_filter_of_imp fun d _ hd => (Bool.and_eq_true _ _ ▸ hd).1
  rw [hfilter]
  refine congrArg _ (List.filter_congr fun d _ => ?_)
  by_cases howner : d.organization = o
  · rw [hlatest d howner]
  · rw [beq_false_of_ne howner, Bool.false_and, Bool.false_and]

/-- The newest versions are found by workflow and version alone, but the workflows of the
organization are none of the others'. -/
theorem Apart.listLatest_ownedBy (h : Apart others rest o db) (offset limit : Int) :
    (db.ownedBy o).listLatest o offset limit = db.listLatest o offset limit := by
  unfold listLatest
  rw [newestVersions_ownedBy]
  have hfilter : (db.ownedBy o).definitions.filter
        (fun d => (db.newestVersions o).contains (d.workflow, d.version)) =
      db.definitions.filter fun d => (db.newestVersions o).contains (d.workflow, d.version) := by
    refine filter_filter_of_imp fun d hd hnewest => ?_
    rw [List.contains_iff_mem] at hnewest
    obtain ⟨own, hown, heq⟩ := List.mem_map.1 hnewest
    obtain ⟨hmem, howner⟩ := List.mem_filter.1 hown
    rw [Bool.and_eq_true, beq_iff_eq] at howner
    have hworkflow : others.LacksWorkflow d.workflow :=
      (Prod.mk.inj heq).1 ▸ (h.definitions own hmem howner.1).workflow
    simpa using not_not.1 fun hother => hworkflow d (h.definition_mem hd hother) rfl
  dsimp only
  rw [hfilter]

variable {run : String}

theorem HasRun.recordsOf_ownedBy (h : db.HasRun o run) (node : String) :
    (db.ownedBy o).recordsOf run node = db.recordsOf run node :=
  filter_filter_of_imp fun r _ hr => by
    rw [Bool.and_eq_true, beq_iff_eq] at hr
    exact HasRun.isRecordOf (hr.1 ▸ h)

theorem HasRun.hasSuccess_ownedBy (h : db.HasRun o run) (node : String) :
    (db.ownedBy o).hasSuccess run node = db.hasSuccess run node := by
  unfold hasSuccess
  rw [h.recordsOf_ownedBy]

theorem HasRun.nextAttempt_ownedBy (h : db.HasRun o run) (node : String) :
    (db.ownedBy o).nextAttempt run node = db.nextAttempt run node := by
  unfold nextAttempt
  rw [h.recordsOf_ownedBy]

theorem HasRun.history_ownedBy (h : db.HasRun o run) :
    (db.ownedBy o).history run = db.history run := by
  unfold history ownedBy
  dsimp only
  rw [filter_filter_of_imp fun r _ hr => ?_]
  exact HasRun.isRecordOf ((beq_iff_eq.1 hr) ▸ h)

theorem contactHistory_ownedBy (db : Database) (o contact : String) (limit : Int) :
    (db.ownedBy o).contactHistory o contact limit = db.contactHistory o contact limit := by
  have hruns : ∀ id : String, ((db.ownedBy o).runs.any fun run =>
        run.id == id && (run.organization == o && run.contact == contact)) =
      db.runs.any fun run => run.id == id && (run.organization == o && run.contact == contact) :=
    fun id => any_filter_of_imp fun run _ hrun => by
      simp only [Bool.and_eq_true] at hrun
      exact hrun.2.1
  have hrecords : (db.ownedBy o).records.filter (fun r => db.runs.any fun run =>
        run.id == r.run && (run.organization == o && run.contact == contact)) =
      db.records.filter fun r => db.runs.any fun run =>
        run.id == r.run && (run.organization == o && run.contact == contact) := by
    refine filter_filter_of_imp fun r _ hr => ?_
    obtain ⟨run, hrun, hown⟩ := List.any_eq_true.1 hr
    simp only [Bool.and_eq_true] at hown
    exact List.any_eq_true.2 ⟨run, hrun, by simp [hown.1, hown.2.1]⟩
  unfold contactHistory
  simp only [hruns, hrecords]

end Queries

/-! ## Writes -/

/-- A database has become `db'`, and what the organization had in it has become `own`. -/
structure Follows (others rest : Database) (o : String) (db db' own : Database) : Prop where
  ownedBy_eq : db'.ownedBy o = own
  apart : Apart others rest o db'
  known : ∀ id, db.HasRun o id → db'.HasRun o id

/-- A change does to what the organization has what it would do without the others, or is refused
as it would be without them. -/
inductive Tracks {α : Type} (others rest : Database) (o : String)
    (f : Database → Except Failure (α × Database)) (db : Database) : Prop where
  | refused (e : Failure) (whole : f db = .error e) (part : f (db.ownedBy o) = .error e)
  | made (a : α) (db' own : Database) (whole : f db = .ok (a, db'))
    (part : f (db.ownedBy o) = .ok (a, own)) (follows : Follows others rest o db db' own)

theorem Apart.follows_self (h : Apart others rest o db) :
    Follows others rest o db db (db.ownedBy o) :=
  ⟨rfl, h, fun _ => id⟩

theorem Follows.trans {db₁ db₂ own₁ own₂ : Database} (h : Follows others rest o db db₁ own₁)
    (h' : Follows others rest o db₁ db₂ own₂) : Follows others rest o db db₂ own₂ :=
  ⟨h'.ownedBy_eq, h'.apart, fun id hid => h'.known id (h.known id hid)⟩

theorem tracks_of_total {α : Type} {f : Database → α × Database}
    (hvalue : (f (db.ownedBy o)).1 = (f db).1)
    (h : Follows others rest o db (f db).2 (f (db.ownedBy o)).2) :
    Tracks others rest o (fun db => .ok (f db)) db :=
  .made _ _ _ rfl (by rw [← hvalue]) h

section Writes

variable (h : Apart others rest o db)

include h

/-! ### Runs -/

/-- Runs are changed, but not those of the others. -/
theorem Apart.follows_mapRuns {f : Run → Run}
    (hf : ∀ r, (f r).id = r.id ∧ (f r).organization = r.organization ∧
      (f r).definition = r.definition)
    (hothers : ∀ r ∈ db.runs, r.organization ≠ o → f r = r) :
    Follows others rest o db { db with runs := db.runs.map f }
      { db.ownedBy o with runs := (db.ownedBy o).runs.map f } := by
  have hrecord : ∀ r, { db with runs := db.runs.map f }.isRecordOf o r = db.isRecordOf o r := by
    intro r
    simp only [isRecordOf, List.any_map, Function.comp_def, (hf _).1, (hf _).2.1]
  have howned : { db with runs := db.runs.map f }.ownedBy o =
      { db.ownedBy o with runs := (db.ownedBy o).runs.map f } := by
    simp only [ownedBy, funext hrecord]
    rw [filter_map_of_eq fun r _ => by rw [(hf r).2.1]]
  have hbesides : { db with runs := db.runs.map f }.besides o = db.besides o := by
    simp only [besides, hrecord]
    rw [filter_map_of_eq fun r _ => by rw [(hf r).2.1]]
    refine congrArg (fun rs => Database.mk _ rs _) ((List.map_congr_left fun r hr => ?_).trans
      (List.map_id _))
    obtain ⟨hmem, hother⟩ := List.mem_filter.1 hr
    exact hothers r hmem (by simpa using hother)
  refine ⟨howned, ⟨hbesides.trans h.besides_eq, h.within, h.keyed, h.definitions, ?_⟩, ?_⟩
  · intro r' hr' howner
    obtain ⟨r, hr, rfl⟩ := List.mem_map.1 hr'
    obtain ⟨hid, horganization, hdefinition⟩ := hf r
    obtain ⟨-, hrun, hdef⟩ := h.runs r hr (horganization ▸ howner)
    exact ⟨howner, hid.symm ▸ hrun, hdefinition.symm ▸ hdef⟩
  · rintro id ⟨r, hr, rfl⟩
    exact ⟨f r, howned ▸ List.mem_map_of_mem hr, (hf r).1⟩

theorem Apart.follows_updateRun {id : String} {guard : Run → Bool} {change : Run → Run}
    (lacks : others.LacksRun id)
    (hchange : ∀ r, (change r).id = r.id ∧ (change r).organization = r.organization ∧
      (change r).definition = r.definition) :
    Follows others rest o db (db.updateRun id guard change).2
      ((db.ownedBy o).updateRun id guard change).2 := by
  refine h.follows_mapRuns (fun r => ?_) fun r hr hother => ?_
  · split
    · exact hchange r
    · exact ⟨rfl, rfl, rfl⟩
  · have hne : r.id ≠ id := fun hid => hother (h.organization_eq_of_run lacks hr hid)
    simp [hne]

theorem Apart.updateRun {id : String} {guard : Run → Bool} {change : Run → Run}
    (lacks : others.LacksRun id)
    (hchange : ∀ r, (change r).id = r.id ∧ (change r).organization = r.organization ∧
      (change r).definition = r.definition) :
    Tracks others rest o (fun db => .ok (db.updateRun id guard change)) db := by
  refine tracks_of_total (any_filter_of_imp fun r hr htarget => ?_)
    (h.follows_updateRun lacks hchange)
  rw [Bool.and_eq_true, beq_iff_eq] at htarget
  simpa using h.organization_eq_of_run lacks hr htarget.1

theorem Apart.cancelAll (time : Instant) {ids : List String}
    (lacks : ∀ id ∈ ids, others.LacksRun id) :
    Follows others rest o db (Engine.cancelAll time ids db)
      (Engine.cancelAll time ids (db.ownedBy o)) := by
  induction ids generalizing db with
  | nil => exact h.follows_self
  | cons id ids ih =>
    have hfirst : Follows others rest o db (db.cancel time id).2
        ((db.ownedBy o).cancel time id).2 :=
      h.follows_updateRun (lacks id List.mem_cons_self) fun _ => ⟨rfl, rfl, rfl⟩
    have hrest := ih hfirst.apart fun id hid => lacks id (List.mem_cons_of_mem _ hid)
    rw [hfirst.ownedBy_eq] at hrest
    exact hfirst.trans hrest

/-- A run of the organization is added, of which there is no trail. -/
theorem Apart.follows_addRun {run : Run} (own : run.Own others o)
    (trail : others.LacksTrail run.id) :
    Follows others rest o db { db with runs := db.runs ++ [run] }
      { db.ownedBy o with runs := (db.ownedBy o).runs ++ [run] } := by
  have hrecord : ∀ r ∈ db.records,
      { db with runs := db.runs ++ [run] }.isRecordOf o r = db.isRecordOf o r := by
    intro r hr
    rw [Bool.eq_iff_iff]
    simp only [isRecordOf, List.any_append, List.any_cons, List.any_nil, Bool.or_false,
      Bool.or_eq_true, or_iff_left_iff_imp]
    intro hnew
    by_contra hother
    refine trail r (h.record_mem hr hother) ?_
    rw [Bool.and_eq_true, beq_iff_eq] at hnew
    exact hnew.1.symm
  have howned : { db with runs := db.runs ++ [run] }.ownedBy o =
      { db.ownedBy o with runs := (db.ownedBy o).runs ++ [run] } := by
    simp [ownedBy, List.filter_append, own.organization_eq, List.filter_congr hrecord]
  have hbesides : { db with runs := db.runs ++ [run] }.besides o = db.besides o := by
    have hothers : db.records.filter (fun r =>
          !{ db with runs := db.runs ++ [run] }.isRecordOf o r) =
        db.records.filter fun r => !db.isRecordOf o r :=
      List.filter_congr fun r hr => by rw [hrecord r hr]
    simp [besides, List.filter_append, own.organization_eq, hothers]
  refine ⟨howned, ⟨hbesides.trans h.besides_eq, h.within, h.keyed, h.definitions, ?_⟩, ?_⟩
  · intro r hr howner
    rcases List.mem_append.1 hr with hr | hr
    · exact h.runs r hr howner
    · exact List.mem_singleton.1 hr ▸ own
  · rintro id ⟨r, hr, hid⟩
    exact ⟨r, howned ▸ List.mem_append_left _ hr, hid⟩

/-- A run is begun for the organization. -/
theorem Apart.createRun {id : String} {d : Definition} (own : d.Own others o)
    (lacks : others.LacksRun id) (trail : others.LacksTrail id) (now : Instant)
    (contact node : String) (event : Value) (chainDepth : Int) :
    Tracks others rest o
      (fun db => .ok (db.createRun now id d contact node event chainDepth)) db := by
  have hfree : (db.ownedBy o).runs.any (fun r =>
        r.id == id || r.activeKey == some (activeKeyOf d.id contact)) =
      db.runs.any fun r => r.id == id || r.activeKey == some (activeKeyOf d.id contact) := by
    refine any_filter_of_imp fun r hr htaken => ?_
    have howner : ¬r.organization ≠ o := fun hother => by
      have hmem := h.run_mem hr hother
      rcases Bool.or_eq_true _ _ ▸ htaken with hid | hkey
      · exact lacks r hmem (by simpa using hid)
      · exact h.keyed r hmem d.id contact own.named own.definition (by simpa using hkey)
    simpa using howner
  refine tracks_of_total ?_ ?_
  · simp only [Database.createRun, hfree]
    split <;> rfl
  · simp only [Database.createRun, hfree]
    split
    · exact h.follows_self
    · exact h.follows_addRun ⟨own.organization_eq, lacks, own.definition⟩ trail

/-! ### Records -/

/-- An attempt of a run of the organization is recorded. -/
theorem Apart.record {r : NodeRecord} (known : db.HasRun o r.run) :
    Tracks others rest o (fun db => db.record r) db := by
  have hconflict : (db.ownedBy o).records.any (fun a =>
        a.run == r.run && a.node == r.node && a.attempt == r.attempt) =
      db.records.any fun a => a.run == r.run && a.node == r.node && a.attempt == r.attempt :=
    any_filter_of_imp fun a _ ha => by
      simp only [Bool.and_eq_true, beq_iff_eq] at ha
      exact HasRun.isRecordOf (ha.1.1 ▸ known)
  by_cases fits : fitsColumn r.attempt
  · by_cases taken : db.records.any fun a =>
      a.run == r.run && a.node == r.node && a.attempt == r.attempt
    · exact .refused (.system .integrity "") (by simp [Database.record, fits, taken])
        (by simp [Database.record, fits, hconflict, taken])
    · refine .made r { db with records := db.records ++ [r] }
        { db.ownedBy o with records := (db.ownedBy o).records ++ [r] }
        (by simp [Database.record, fits, taken]) (by simp [Database.record, fits, hconflict, taken])
        ⟨?_, ⟨?_, h.within, h.keyed, h.definitions, h.runs⟩, fun _ => id⟩
      · have hfilter : (db.records ++ [r]).filter (db.isRecordOf o) =
            db.records.filter (db.isRecordOf o) ++ [r] := by
          rw [List.filter_append, List.filter_cons_of_pos known.isRecordOf, List.filter_nil]
        exact congrArg (Database.mk _ _) hfilter
      · have hfilter : (db.records ++ [r]).filter (fun a => !db.isRecordOf o a) =
            db.records.filter fun a => !db.isRecordOf o a := by
          rw [List.filter_append, List.filter_cons_of_neg (by simp [known.isRecordOf]),
            List.filter_nil, List.append_nil]
        exact (congrArg (Database.mk _ _) hfilter).trans h.besides_eq
  · exact .refused columnOverflow (by simp [Database.record, fits])
      (by simp [Database.record, fits])

/-! ### Definitions -/

/-- The definitions of the organization have become others. -/
theorem Apart.follows_definitions (ds : List Definition)
    (hothers : (ds.filter fun d => d.organization != o) =
      db.definitions.filter fun d => d.organization != o)
    (own : ∀ d ∈ ds, d.organization = o → d.Own others o) :
    Follows others rest o db { db with definitions := ds }
      { db.ownedBy o with definitions := ds.filter fun d => d.organization == o } :=
  ⟨rfl, ⟨(congrArg (fun ds => Database.mk ds _ _) hothers).trans h.besides_eq, h.within, h.keyed,
    own, h.runs⟩, fun _ => id⟩

theorem Apart.insertDefinition {d : Definition} (own : d.Own others o) :
    Tracks others rest o (fun db => db.insertDefinition d) db := by
  have hconflict : (db.ownedBy o).definitions.any (fun a =>
        a.id == d.id || (a.workflow == d.workflow && a.version == d.version)) =
      db.definitions.any fun a =>
        a.id == d.id || (a.workflow == d.workflow && a.version == d.version) := by
    refine any_filter_of_imp fun a ha htaken => ?_
    have howner : ¬a.organization ≠ o := fun hother => by
      have hmem := h.definition_mem ha hother
      simp only [Bool.or_eq_true, Bool.and_eq_true, beq_iff_eq] at htaken
      exact htaken.elim (own.definition a hmem) fun hversion => own.workflow a hmem hversion.1
    simpa using howner
  by_cases fits : fitsColumn d.version
  · by_cases taken : db.definitions.any fun a =>
      a.id == d.id || (a.workflow == d.workflow && a.version == d.version)
    · exact .refused (.system .integrity "") (by simp [Database.insertDefinition, fits, taken])
        (by simp [Database.insertDefinition, fits, hconflict, taken])
    · have hfollows := h.follows_definitions (db.definitions ++ [d])
        (by simp [List.filter_append, own.organization_eq]) fun a ha howner => by
          rcases List.mem_append.1 ha with ha | ha
          · exact h.definitions a ha howner
          · exact List.mem_singleton.1 ha ▸ own
      have hpart : (db.ownedBy o).insertDefinition d = .ok (d, { db.ownedBy o with
          definitions := (db.definitions ++ [d]).filter fun d => d.organization == o }) := by
        unfold Database.insertDefinition
        rw [hconflict, if_neg (by simp [fits]), if_neg taken]
        simp [List.filter_append, own.organization_eq, ownedBy]
      exact .made d _ _ (by simp [Database.insertDefinition, fits, taken]) hpart hfollows
  · exact .refused columnOverflow (by simp [Database.insertDefinition, fits])
      (by simp [Database.insertDefinition, fits])

theorem Apart.follows_updateDefinition {id : String} (change : Definition → Definition)
    (lacks : others.LacksDefinition id)
    (hchange : ∀ d, (change d).id = d.id ∧ (change d).organization = d.organization ∧
      (change d).workflow = d.workflow) :
    Follows others rest o db (db.updateDefinition id change)
      ((db.ownedBy o).updateDefinition id change) := by
  have hsame : ∀ d : Definition, (if d.id == id then change d else d).id = d.id ∧
      (if d.id == id then change d else d).organization = d.organization ∧
      (if d.id == id then change d else d).workflow = d.workflow := by
    intro d
    split
    · exact hchange d
    · exact ⟨rfl, rfl, rfl⟩
  have hpart : (db.definitions.map fun d => if d.id == id then change d else d).filter
        (fun d => d.organization == o) =
      (db.ownedBy o).definitions.map fun d => if d.id == id then change d else d :=
    filter_map_of_eq fun d _ => by rw [(hsame d).2.1]
  have hfollows := h.follows_definitions
    (db.definitions.map fun d => if d.id == id then change d else d) ?_ ?_
  · rw [hpart] at hfollows
    exact hfollows
  · rw [filter_map_of_eq fun d _ => by rw [(hsame d).2.1]]
    refine (List.map_congr_left fun d hd => ?_).trans (List.map_id _)
    obtain ⟨hmem, hother⟩ := List.mem_filter.1 hd
    have hne : d.id ≠ id := fun hid =>
      absurd (h.organization_eq_of_definition lacks hmem hid) (by simpa using hother)
    simp [hne]
  · intro d' hd' howner
    obtain ⟨d, hd, rfl⟩ := List.mem_map.1 hd'
    obtain ⟨hid, horganization, hworkflow⟩ := hsame d
    obtain ⟨-, named, hdef, hwork⟩ := h.definitions d hd (horganization ▸ howner)
    exact ⟨howner, hid.symm ▸ named, hid.symm ▸ hdef, hworkflow.symm ▸ hwork⟩

theorem Apart.reread_ownedBy {read : Definition} (lacks : others.LacksDefinition read.id) :
    (db.ownedBy o).reread read = db.reread read := by
  unfold reread
  rw [h.definition?_ownedBy lacks]

omit h in
/-- A definition is changed and read again. -/
theorem Follows.reread {read : Definition} {db' own : Database}
    (hfollows : Follows others rest o db db' own) (lacks : others.LacksDefinition read.id) :
    own.reread read = db'.reread read := by
  rw [← hfollows.ownedBy_eq, hfollows.apart.reread_ownedBy lacks]

theorem Apart.writeDraft {read : Definition} {id : String} (own : read.Own others o)
    (named : ':' ∉ id.toList) (lacks : others.LacksDefinition id) (now : Instant) (e : Edit) :
    Tracks others rest o (fun db => db.writeDraft now id read e) db := by
  unfold Database.writeDraft
  by_cases draft : read.status = .known .draft
  · simp only [draft, if_true]
    unfold editDraft
    by_cases changed : e.changes read
    · simp only [changed, if_true]
      have hfollows := h.follows_updateDefinition
        (fun d => { e.apply read d with updatedAt := now }) own.definition
        fun _ => ⟨rfl, rfl, rfl⟩
      exact tracks_of_total (hfollows.reread own.definition) hfollows
    · simp only [changed]
      exact tracks_of_total (h.reread_ownedBy own.definition) h.follows_self
  · simp only [draft, if_false]
    unfold beginDraft
    cases hgraph : nextGraph read e with
    | error f => exact .refused f rfl rfl
    | ok graph =>
      exact h.insertDefinition ⟨own.organization_eq, named, lacks, own.workflow⟩

theorem Apart.createWorkflow {workflow id : String} (named : ':' ∉ id.toList)
    (lacks : others.LacksDefinition id) (fresh : others.LacksWorkflow workflow) (now : Instant)
    (name description : String) (graph : Value) (createdBy : Option String) :
    Tracks others rest o
      (fun db => db.createWorkflow now workflow id o name description graph createdBy) db :=
  h.insertDefinition ⟨rfl, named, lacks, fresh⟩

theorem Apart.own_of_published? {workflow : String} {d : Definition}
    (hd : db.published? workflow o = some d) : d.Own others o := by
  have hspec := List.find?_some hd
  simp only [Bool.and_eq_true, beq_iff_eq] at hspec
  exact h.definitions d (List.mem_of_find?_eq_some hd) hspec.1.2

omit h in
/-- A definition is changed after something else has happened. -/
theorem Follows.updateDefinition {db' own : Database} {id : String}
    {change : Definition → Definition} (hfollows : Follows others rest o db db' own)
    (lacks : others.LacksDefinition id)
    (hchange : ∀ d, (change d).id = d.id ∧ (change d).organization = d.organization ∧
      (change d).workflow = d.workflow) :
    Follows others rest o db (db'.updateDefinition id change) (own.updateDefinition id change) := by
  have hupdated := hfollows.apart.follows_updateDefinition change lacks hchange
  rw [hfollows.ownedBy_eq] at hupdated
  exact hfollows.trans hupdated

theorem Apart.markPublished {read : Definition} (own : read.Own others o) (now : Instant)
    (type : Option String) :
    Tracks others rest o (fun db => db.markPublished now read type) db := by
  unfold Database.markPublished
  by_cases draft : read.status = .known .draft
  · simp only [draft, ne_eq, not_true_eq_false, if_false, own.organization_eq]
    let publish (d : Definition) : Definition :=
      { d with
        status := .known .published
        triggerType := type.or d.triggerType
        publishedAt := some now
        updatedAt := now }
    have hpublish : ∀ d, (publish d).id = d.id ∧ (publish d).organization = d.organization ∧
      (publish d).workflow = d.workflow := fun _ => ⟨rfl, rfl, rfl⟩
    -- the version that was published before is found among the organization's own
    cases hprevious : db.published? read.workflow o with
    | none =>
      have hfollows := h.follows_self.updateDefinition own.definition hpublish
      refine tracks_of_total ?_ ?_ <;> simp only [published?_ownedBy, hprevious]
      · exact hfollows.reread own.definition
      · exact hfollows
    | some previous =>
      have hfreed : Follows others rest o db (db.setStatus now previous.id .archived)
          ((db.ownedBy o).setStatus now previous.id .archived) :=
        h.follows_updateDefinition _ (h.own_of_published? hprevious).definition
          fun _ => ⟨rfl, rfl, rfl⟩
      have hfollows := hfreed.updateDefinition own.definition hpublish
      refine tracks_of_total ?_ ?_ <;> simp only [published?_ownedBy, hprevious]
      · exact hfollows.reread own.definition
      · exact hfollows
  · simp only [draft, ne_eq, not_false_eq_true, if_true]
    exact .refused _ rfl rfl

theorem Apart.archive (now : Instant) (workflow : String) :
    Tracks others rest o (fun db => db.archive now workflow o) db := by
  cases hd : db.published? workflow o with
  | none =>
    exact .refused (.notFound ("Workflow " ++ workflow ++ " has no published version"))
      (by simp only [Database.archive, hd])
      (by simp only [Database.archive, published?_ownedBy, hd])
  | some d =>
    have own := h.own_of_published? hd
    have hfollows : Follows others rest o db (db.setStatus now d.id .archived)
        ((db.ownedBy o).setStatus now d.id .archived) :=
      h.follows_updateDefinition _ own.definition fun _ => ⟨rfl, rfl, rfl⟩
    refine .made ((db.setStatus now d.id .archived).reread d) _ _
      (by simp only [Database.archive, hd]) ?_ hfollows
    simp only [Database.archive, published?_ownedBy, hd, hfollows.reread own.definition]

end Writes

end Database

end CrmAutomation
