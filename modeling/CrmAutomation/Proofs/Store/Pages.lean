import CrmAutomation.Paging
import CrmAutomation.Proofs.Store.Versions
import CrmAutomation.Store.Runs

/-!
# Lists that are read in pages

The workflows and the runs of an organization are listed in pages, which are asked for by their
numbers (`Database.workflowPage`, `Database.runPage`). A list is read in pages if its pages put
together are the list, what comes behind them is empty, and every page tells how long the list is
(`ReadsInPages`). That holds as far as the offset of a page is a number that a query takes
(`InReach`), of every list of which a page is a part (`readsInPages_of_parts`).

What is read in this way is, in tables that are in order, each workflow of the organization by its
highest version (`Database.IsWorkflowList`) and each run of the organization that passes the filter
(`Database.IsRunList`), the newest first. Where rows have one time, a database may list them in any
order, so no two of them have (`Database.ChangedApart`, `Database.StartedApart`).
-/

namespace CrmAutomation

variable {α : Type}

/-! ## Pages -/

/-- The number of rows before a page is one that a query takes. -/
def InReach (size page : Int) : Prop := (page - 1) * size < Int.pow 2 63

/-- The rows on the first `n` pages, one page after the other. -/
def firstPages (read : Int → Except Failure (List α × Nat)) : Nat → Except Failure (List α)
  | 0 => .ok []
  | n + 1 => do
    let rows ← firstPages read n
    let (next, _) ← read (n + 1)
    return rows ++ next

/-- Reading page by page one gets the rows, each of them once and in order, then empty pages, and
with every page the number of all rows. Pages out of reach are refused. -/
structure ReadsInPages (size : Int) (read : Int → Except Failure (List α × Nat)) (rows : List α) :
    Prop where
  whole : ∀ n : Nat, InReach size n → rows.length ≤ n * size → firstPages read n = .ok rows
  total : ∀ page, 1 ≤ page → InReach size page → ∃ part, read page = .ok (part, rows.length)
  later : ∀ page, 1 ≤ page → InReach size page → rows.length ≤ (page - 1) * size →
    read page = .ok ([], rows.length)
  beyond : ∀ page, 1 ≤ page → ¬InReach size page → read page = .error Database.columnOverflow

section Parts

variable {size page : Int} {read : Int → Except Failure (List α × Nat)} {rows : List α}

theorem InReach.mono {page' : Int} (h : InReach size page') (le : page ≤ page') (hsize : 0 ≤ size) :
    InReach size page :=
  Int.lt_of_le_of_lt (Int.mul_le_mul_of_nonneg_right (by omega) hsize) h

theorem pageOffset_eq (hpage : 1 ≤ page) : pageOffset page size = (page - 1) * size := by
  rw [pageOffset, Int.max_eq_left hpage]

/-- The offset of a page is taken by a query exactly if the page is in reach. -/
theorem fitsColumn_pageOffset_iff (hpage : 1 ≤ page) (hsize : 0 ≤ size) :
    Database.fitsColumn (pageOffset page size) ↔ InReach size page := by
  have nonneg : 0 ≤ (page - 1) * size := Int.mul_nonneg (by omega) hsize
  rw [pageOffset_eq hpage, Database.fitsColumn, Bool.and_eq_true, decide_eq_true_eq,
    decide_eq_true_eq]
  exact ⟨fun fits => fits.2, fun reach => ⟨Int.le_trans (by decide) nonneg, reach⟩⟩

/-- The rows of a page in reach are those behind the rows of the pages before it. -/
theorem page_eq {offset : Int} (hsize : 0 ≤ size) :
    Database.page offset size rows = (rows.drop offset.toNat).take size.toNat := by
  rw [Database.page, Database.limited, if_neg (by omega)]

/-- The first pages are the beginning of what is read. -/
theorem firstPages_eq (hsize : 0 ≤ size)
    (parts : ∀ page, 1 ≤ page → InReach size page →
      read page = .ok (Database.page ((page - 1) * size) size rows, rows.length)) :
    ∀ n : Nat, InReach size n → firstPages read n = .ok (rows.take (n * size.toNat))
  | 0, _ => by simp [firstPages]
  | n + 1, h => by
    have before : InReach size n := h.mono (by push_cast; omega) hsize
    have offset : (((n : Int) + 1 - 1) * size).toNat = n * size.toNat := by
      obtain ⟨k, rfl⟩ := Int.eq_ofNat_of_zero_le hsize
      simp only [Int.add_sub_cancel, ← Int.natCast_mul, Int.toNat_natCast]
    have next := parts (n + 1) (by omega) (by exact_mod_cast h)
    rw [page_eq hsize, offset] at next
    rw [firstPages, firstPages_eq hsize parts n before, next, Nat.succ_mul, List.take_add]
    rfl

/-- A list is read in pages if every page in reach is a part of it, and the others are refused. -/
theorem readsInPages_of_parts (hsize : 1 ≤ size)
    (parts : ∀ page, read page = do
      let offset ← Database.bound (pageOffset page size)
      return (Database.page offset size rows, rows.length)) :
    ReadsInPages size read rows := by
  have nonneg : 0 ≤ size := by omega
  have inside : ∀ page, 1 ≤ page → InReach size page →
      read page = .ok (Database.page ((page - 1) * size) size rows, rows.length) := by
    intro page hpage hreach
    rw [parts, Database.bound, if_pos ((fitsColumn_pageOffset_iff hpage nonneg).2 hreach),
      pageOffset_eq hpage]
    rfl
  have outside : ∀ page, 1 ≤ page → ¬InReach size page →
      read page = .error Database.columnOverflow := by
    intro page hpage hreach
    rw [parts, Database.bound, if_neg ((fitsColumn_pageOffset_iff hpage nonneg).not.2 hreach)]
    rfl
  refine ⟨fun n hreach hlength => ?_, fun page hpage hreach => ⟨_, inside page hpage hreach⟩,
    fun page hpage hreach hlength => ?_, outside⟩
  · rw [firstPages_eq nonneg inside n hreach, List.take_of_length_le]
    obtain ⟨k, rfl⟩ := Int.eq_ofNat_of_zero_le nonneg
    simpa using (by exact_mod_cast hlength : rows.length ≤ n * k)
  · rw [inside page hpage hreach, page_eq nonneg, List.drop_eq_nil_of_le (by omega), List.take_nil]

end Parts

/-! ## Rows by their time -/

/-- Rows of different times are sorted strictly, the last one first. -/
theorem pairwise_lastFirst {rows : List α} {time : α → Nat} (distinct : rows.Nodup)
    (apart : ∀ a ∈ rows, ∀ b ∈ rows, time a = time b → a = b) :
    (rows.mergeSort fun a b => time b ≤ time a).Pairwise fun a b => time b < time a := by
  have sorted : (rows.mergeSort fun a b => time b ≤ time a).Pairwise
      fun a b => decide (time b ≤ time a) = true :=
    List.pairwise_mergeSort (fun a b c h h' => by simp at *; omega) (fun a b => by simp; omega) rows
  have different := (List.mergeSort_perm rows fun a b => decide (time b ≤ time a)).nodup_iff.2
    distinct
  refine (sorted.and different).imp_of_mem fun {a b} ha hb h => ?_
  refine Nat.lt_of_le_of_ne (of_decide_eq_true h.1) fun heq => h.2 ?_
  exact apart a (List.mem_mergeSort.1 ha) b (List.mem_mergeSort.1 hb) heq.symm

namespace Database

variable {db : Database} {o : String} {d : Definition} {f : RunFilter} {r : Run} {size : Int}

/-! ## The list of workflows -/

/-- One page of the workflows of an organization, which is asked for by its number. -/
def workflowPage (db : Database) (o : String) (size page : Int) :
    Except Failure (List Definition × Nat) := do
  let offset ← bound (pageOffset page size)
  return db.listLatest o offset size

/-- The workflows of an organization, each by its highest version, the last changed first. -/
structure IsWorkflowList (db : Database) (o : String) (rows : List Definition) : Prop where
  mem_iff : ∀ d, d ∈ rows ↔ Newest db.definitions d ∧ d.organization = o
  single : (rows.map (·.workflow)).Nodup
  covers : ∀ d ∈ db.definitions, d.organization = o → d.workflow ∈ rows.map (·.workflow)
  sorted : rows.Pairwise fun a b => b.updatedAt.micros < a.updatedAt.micros

/-- No two workflows of an organization were last changed at the same time. -/
def ChangedApart (db : Database) (o : String) : Prop :=
  ∀ a, Newest db.definitions a → ∀ b, Newest db.definitions b →
    a.organization = o → b.organization = o → a.updatedAt = b.updatedAt → a = b

theorem isLatest_iff (h : Versioned db.definitions) (hd : d ∈ db.definitions) :
    db.isLatest d ↔ Newest db.definitions d := by
  simp only [isLatest, List.all_eq_true, Bool.or_eq_true, Bool.not_eq_true',
    Bool.and_eq_false_iff, beq_eq_false_iff_ne, decide_eq_true_eq]
  refine ⟨fun last => ⟨hd, fun a ha same => ?_⟩, fun newest a ha => ?_⟩
  · refine (last a ha).resolve_left fun other => other.elim (· same) fun foreign => ?_
    exact foreign (h.owned a ha d hd same)
  · exact (Decidable.em (a.workflow = d.workflow)).symm.imp .inl (newest.last a ha)

/-- The rows that the newest versions of an organization are found by are these versions. -/
theorem contains_newestVersions_iff (h : Versioned db.definitions) (hd : d ∈ db.definitions) :
    (db.newestVersions o).contains (d.workflow, d.version) ↔
      d.organization = o ∧ db.isLatest d := by
  simp only [newestVersions, List.contains_iff_mem, List.mem_map, List.mem_filter,
    Bool.and_eq_true, beq_iff_eq, Prod.mk.injEq]
  refine ⟨?_, fun own => ⟨d, ⟨hd, own⟩, rfl, rfl⟩⟩
  rintro ⟨a, ⟨ha, own⟩, workflow, version⟩
  exact h.eq_of_version_eq ha hd workflow version ▸ own

/-- A workflow has a highest version. -/
theorem exists_newest (h : Versioned db.definitions) (hd : d ∈ db.definitions) :
    ∃ a, Newest db.definitions a ∧ a.workflow = d.workflow ∧ a.organization = d.organization := by
  have versions : d ∈ db.versions d.workflow d.organization := mem_versions.2 ⟨hd, rfl, rfl⟩
  cases first : db.versions d.workflow d.organization with
  | nil => simp [first] at versions
  | cons a rest => exact ⟨a, (latest_eq_ok_iff h).1 (by rw [latest, first])⟩

/-- What is listed of an organization are pages of its workflows, with their number. -/
theorem exists_isWorkflowList (h : Versioned db.definitions) (apart : db.ChangedApart o) :
    ∃ rows, db.IsWorkflowList o rows ∧
      ∀ offset limit, db.listLatest o offset limit = (page offset limit rows, rows.length) := by
  let newest := db.definitions.filter fun d => d.organization == o && db.isLatest d
  let rows := newest.mergeSort fun a b => b.updatedAt.micros ≤ a.updatedAt.micros
  have found : (db.definitions.filter fun d =>
      (db.newestVersions o).contains (d.workflow, d.version)) = newest :=
    List.filter_congr fun d hd => by
      rw [Bool.eq_iff_iff, contains_newestVersions_iff h hd, Bool.and_eq_true, beq_iff_eq]
  have mem {d : Definition} : d ∈ newest ↔ Newest db.definitions d ∧ d.organization = o := by
    rw [List.mem_filter, Bool.and_eq_true, beq_iff_eq]
    exact ⟨fun ⟨hd, own, last⟩ => ⟨(isLatest_iff h hd).1 last, own⟩,
      fun ⟨last, own⟩ => ⟨last.mem, own, (isLatest_iff h last.mem).2 last⟩⟩
  have mem_rows {d : Definition} : d ∈ rows ↔ Newest db.definitions d ∧ d.organization = o :=
    List.mem_mergeSort.trans mem
  have distinct : newest.Nodup := (List.Nodup.of_map _ h.ids).filter _
  have perm : rows.Perm newest := List.mergeSort_perm newest _
  refine ⟨rows, ⟨fun d => mem_rows, ?_, fun d hd own => ?_, ?_⟩, fun offset limit => ?_⟩
  · exact (perm.nodup_iff.2 distinct).map_on fun a ha b hb same =>
      h.newest_unique (mem_rows.1 ha).1 (mem_rows.1 hb).1 same
  · obtain ⟨a, last, workflow, organization⟩ := exists_newest h hd
    exact List.mem_map.2 ⟨a, mem_rows.2 ⟨last, organization.trans own⟩, workflow⟩
  · refine pairwise_lastFirst distinct fun a ha b hb same => ?_
    obtain ⟨last, own⟩ := mem.1 ha
    obtain ⟨last', own'⟩ := mem.1 hb
    exact apart a last b last' own own' (congrArg Instant.mk same)
  · rw [listLatest, found, newestVersions, List.length_map, ← perm.length_eq]

/-- The list of workflows is read in pages. -/
theorem readsInPages_workflowPage (h : Versioned db.definitions) (apart : db.ChangedApart o)
    (hsize : 1 ≤ size) :
    ∃ rows, db.IsWorkflowList o rows ∧ ReadsInPages size (db.workflowPage o size) rows := by
  obtain ⟨rows, list, listed⟩ := exists_isWorkflowList h apart
  exact ⟨rows, list, readsInPages_of_parts hsize fun page => by simp only [workflowPage, listed]⟩

/-! ## The list of runs -/

/-- One page of the runs of an organization that pass a filter. -/
def runPage (db : Database) (o : String) (f : RunFilter) (size page : Int) :
    Except Failure (List Run × Nat) := do
  let offset ← bound (pageOffset page size)
  return listRuns o f offset size db

/-- The contact, the workflow and the state of a run are among those that a filter gives, if it
gives any. -/
structure RunFilter.Passes (f : RunFilter) (r : Run) : Prop where
  contact : ∀ contacts, f.contacts = some contacts → r.contact ∈ contacts
  workflow : ∀ workflows, f.workflows = some workflows → r.workflow ∈ workflows
  state : ∀ states, f.states = some states → r.state.text ∈ states

theorem RunFilter.admits_iff : f.admits r ↔ f.Passes r := by
  simp only [admits, Bool.and_eq_true, Option.all_eq_true, List.contains_iff_mem]
  exact ⟨fun ⟨⟨contact, workflow⟩, state⟩ => ⟨contact, workflow, state⟩,
    fun passes => ⟨⟨passes.contact, passes.workflow⟩, passes.state⟩⟩

/-- The runs of an organization that pass a filter, the last started first. -/
structure IsRunList (db : Database) (o : String) (f : RunFilter) (rows : List Run) : Prop where
  mem_iff : ∀ r, r ∈ rows ↔ r ∈ db.runs ∧ r.organization = o ∧ f.Passes r
  single : (rows.map (·.id)).Nodup
  sorted : rows.Pairwise fun a b => b.startedAt.micros < a.startedAt.micros

/-- No two runs of an organization were started at the same time. -/
def StartedApart (db : Database) (o : String) : Prop :=
  ∀ r ∈ db.runs, ∀ q ∈ db.runs, r.organization = o → q.organization = o →
    r.startedAt = q.startedAt → r = q

/-- What is listed of an organization are pages of its runs that pass the filter, with their
number. -/
theorem exists_isRunList (ids : (db.runs.map (·.id)).Nodup) (apart : db.StartedApart o)
    (f : RunFilter) : ∃ rows, db.IsRunList o f rows ∧
      ∀ offset limit, listRuns o f offset limit db = (page offset limit rows, rows.length) := by
  let all := db.runs.filter fun r => r.organization == o && f.admits r
  let rows := all.mergeSort fun a b => b.startedAt.micros ≤ a.startedAt.micros
  have mem {r : Run} : r ∈ all ↔ r ∈ db.runs ∧ r.organization = o ∧ f.Passes r := by
    rw [List.mem_filter, Bool.and_eq_true, beq_iff_eq, RunFilter.admits_iff]
  have distinct : (all.map (·.id)).Nodup := ids.sublist (List.filter_sublist.map _)
  have perm : rows.Perm all := List.mergeSort_perm all _
  refine ⟨rows, ⟨fun r => List.mem_mergeSort.trans mem, (perm.map _).nodup_iff.2 distinct, ?_⟩,
    fun offset limit => ?_⟩
  · refine pairwise_lastFirst (List.Nodup.of_map _ distinct) fun r hr q hq same => ?_
    obtain ⟨hrows, own, -⟩ := mem.1 hr
    obtain ⟨hrows', own', -⟩ := mem.1 hq
    exact apart r hrows q hrows' own own' (congrArg Instant.mk same)
  · rw [perm.length_eq]
    rfl

/-- The list of runs is read in pages. -/
theorem readsInPages_runPage (ids : (db.runs.map (·.id)).Nodup) (apart : db.StartedApart o)
    (f : RunFilter) (hsize : 1 ≤ size) :
    ∃ rows, db.IsRunList o f rows ∧ ReadsInPages size (db.runPage o f size) rows := by
  obtain ⟨rows, list, listed⟩ := exists_isRunList ids apart f
  exact ⟨rows, list, readsInPages_of_parts hsize fun page => by simp only [runPage, listed]⟩

end Database

end CrmAutomation
