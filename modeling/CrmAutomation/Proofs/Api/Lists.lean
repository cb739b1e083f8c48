import CrmAutomation.Proofs.Api.Tenants
import CrmAutomation.Proofs.Store.Pages

/-!
# The lists of the API

Operators list the workflows and the runs of their organization by the number and the size of a
page. What they are shown is what `Database.workflowPage` and `Database.runPage` tell
(`Api.listWorkflows_eq`, `Api.listRuns_eq`), for a page from the first one on, of one to a hundred
rows (`Api.bounds_of_pageParameters`). Whatever was asked for before, the pages of either list make
up the list (`World.Reached.lists_in_pages`), as far as they are in reach; there is no last page
that may be asked for, and those out of reach fail (`pages_beyond_reach`).
-/

namespace CrmAutomation

variable {σ : Type}

namespace Api

/-! ## What is asked for -/

/-- A number that was given, or is given when there is none, is within its bounds. -/
theorem bounds_of_wholeParameter {q : Http.Query} {key : String} {default least n : Int}
    {most : Option Int} (given : least ≤ default ∧ ∀ m, most = some m → default ≤ m)
    (h : wholeParameter q key default least most = .ok n) :
    least ≤ n ∧ ∀ m, most = some m → n ≤ m := by
  unfold wholeParameter at h
  split at h
  · exact Except.ok.inj h ▸ given
  · split at h
    · cases h
    · cases h
    · split at h
      · cases h
      · rename_i low
        split at h
        · rename_i m
          split at h
          · cases h
          · rename_i high
            obtain rfl := Except.ok.inj h
            exact ⟨by omega, fun m' hm => Option.some.inj hm ▸ by omega⟩
        · obtain rfl := Except.ok.inj h
          exact ⟨by omega, nofun⟩

/-- A page is asked for from the first one on, of one to a hundred rows. -/
theorem bounds_of_pageParameters {q : Http.Query} {page size : Int}
    (h : pageParameters q = .ok (page, size)) : 1 ≤ page ∧ 1 ≤ size ∧ size ≤ 100 := by
  unfold pageParameters Checked.pair at h
  split at h
  · rename_i page' size' hpage hsize
    cases h
    have ⟨low, _⟩ := bounds_of_wholeParameter (by simp) hpage
    have ⟨low', high'⟩ := bounds_of_wholeParameter (by simp) hsize
    exact ⟨low, low', high' 100 rfl⟩
  all_goals cases h

/-! ## What is shown -/

/-- An operator is shown a page of the workflows of the organization, and their number. -/
theorem listWorkflows_eq (s : Server σ) (r : Http.Request) (q : Http.Query) :
    listWorkflows s r q = guarded s r (pageParameters q) fun user (page, size) => do
      let (rows, total) ← Engine.ofExcept ((← get).db.workflowPage user.organization size page)
      let views ← Engine.ofExcept (rows.mapM definitionView)
      return .json 200 (pageView "workflows" views total page size) := by
  refine congrArg (guarded s r (pageParameters q)) ?_
  funext user (page, size)
  refine funext fun w => ?_
  dsimp only [Database.workflowPage, offsetOf]
  cases Database.bound (pageOffset page size) <;> rfl

/-- An operator is shown a page of the runs of the organization that have the contact, the workflow
and the state asked for, and the number of all these. -/
theorem listRuns_eq (s : Server σ) (r : Http.Request) (q : Http.Query) :
    listRuns s r q =
      guarded s r ((pageParameters q).pair (choiceParameter? q "state" RunState.text RunState.all))
        fun user ((page, size), state) => do
          let filter : Database.RunFilter := {
            contacts := (Http.Query.get? "subject_id" q).map fun s => [s]
            workflows := (Http.Query.get? "workflow_id" q).map fun s => [s]
            states := state.map fun s => [s.text] }
          let (rows, total) ← Engine.ofExcept
            ((← get).db.runPage user.organization filter size page)
          return .json 200 (pageView "runs" (rows.map runView) total page size) := by
  refine congrArg (guarded s r _) ?_
  funext user ((page, size), state)
  refine funext fun w => ?_
  dsimp only [Database.runPage, offsetOf]
  cases Database.bound (pageOffset page size) <;> rfl

end Api

/-! ## Pages of what was reached -/

/-- Read in pages of one to a hundred rows, the list of workflows is each workflow of the
organization by its highest version, the last changed first, and the list of runs, whatever the
filter, each run of the organization that passes it, the last started first. -/
theorem World.Reached.lists_in_pages {w : World σ} (h : w.Reached) {o : String}
    (changed : w.db.ChangedApart o) (started : w.db.StartedApart o) {size : Int}
    (hsize : 1 ≤ size ∧ size ≤ 100) :
    (∃ rows, w.db.IsWorkflowList o rows ∧ ReadsInPages size (w.db.workflowPage o size) rows) ∧
    ∀ f, ∃ rows, w.db.IsRunList o f rows ∧ ReadsInPages size (w.db.runPage o f size) rows :=
  have tidy := h.tidy
  ⟨Database.readsInPages_workflowPage tidy.versioned changed hsize.1,
    fun f => Database.readsInPages_runPage tidy.employs.coherent.ids started f hsize.1⟩

/-- Two workflows of an organization, of which each began a run for a contact of its own. -/
def busy : World Unit :=
  (Request.trigger "b" "o-1" "c-2" []).perform (naming "b")
    ((Request.trigger "a" "o-1" "c-1" []).perform (naming "a")
      (announcing "b" "o-1" (announcing "a" "o-1" Engine.blank)))

/-- Both workflows and, of the runs of two contacts, both runs are read on pages of one row. -/
theorem World.Reached.lists_in_pages_of_busy :
    busy.Reached ∧ busy.db.ChangedApart "o-1" ∧ busy.db.StartedApart "o-1" ∧
    busy.db.definitions.map (·.workflow) = ["a", "b"] ∧
    busy.db.runs.map (·.contact) = ["c-1", "c-2"] ∧
    (∃ rows, busy.db.IsWorkflowList "o-1" rows ∧
      ReadsInPages 1 (busy.db.workflowPage "o-1" 1) rows) ∧
    ∃ rows, busy.db.IsRunList "o-1" { contacts := some ["c-1", "c-2"] } rows ∧
      ReadsInPages 1 (busy.db.runPage "o-1" { contacts := some ["c-1", "c-2"] } 1) rows := by
  have named : ∀ name ∈ ["a", "b"], ∀ id, (naming name).host.NamesDefinition id → ':' ∉ id.toList :=
    fun name hname => named_naming
      ((by decide : ∀ name ∈ ["a", "b"], ':' ∉ (name ++ "-1").toList) name hname)
  have first := named "a" (by decide)
  have second := named "b" (by decide)
  have announced := reached_announcing (o := "o-1")
    (reached_announcing (o := "o-1") (w := Engine.blank) (.empty rfl rfl) first) second
  have reached : busy.Reached := .serve (.serve announced _ first _) _ second _
  have changed : busy.db.ChangedApart "o-1" := fun a ha b hb _ _ same =>
    List.inj_on_of_nodup_map (f := fun d : Definition => d.updatedAt) (by decide +kernel) ha.mem
      hb.mem same
  have started : busy.db.StartedApart "o-1" := fun r hr q hq _ _ same =>
    List.inj_on_of_nodup_map (f := fun r : Run => r.startedAt) (by decide +kernel) hr hq same
  have one : (1 : Int) ≤ 1 ∧ (1 : Int) ≤ 100 := by decide
  obtain ⟨workflows, runs⟩ := lists_in_pages reached changed started one
  exact ⟨reached, changed, started, by decide +kernel, by decide +kernel, workflows, runs _⟩

/-- A page that is out of reach is refused, although there is no row as far as that. -/
theorem pages_beyond_reach :
    Database.empty.workflowPage "o-1" 1 9223372036854775809 = .error Database.columnOverflow ∧
    Database.empty.runPage "o-1" {} 1 9223372036854775809 = .error Database.columnOverflow :=
  ⟨rfl, rfl⟩

end CrmAutomation
