import CrmAutomation.Proofs.Engine.Delays
import CrmAutomation.Proofs.Engine.Termination

/-!
# What becomes of a run that is executed

Where the database does not fail, an execution leaves its run at rest with the lock that it had. If
the run rests on a delay, then on one that began in the execution (`Run.Onward`), provided that the
delays of its definition last a minute or more (`Lasting`): a run that was due at some time is not
due at that time again (`Engine.exists_runFrom_onward`).
-/

namespace CrmAutomation

variable {σ : Type} {env : Environment σ} {G : String → Graph → Prop} {time : Instant}
  {r o : Run}

/-- Every delay in the graph of the definition lasts a minute or more. -/
def Lasting (G : String → Graph → Prop) (id : String) : Prop :=
  ∀ g, G id g → ∀ n ∈ g.nodes, ∀ minutes, n.config = .delay minutes → 1 ≤ minutes

/-- The row of a run later on, with the same lock, and due after `time` if it is suspended. -/
structure Run.Onward (time : Instant) (r o : Run) : Prop where
  id_eq : o.id = r.id
  definition_eq : o.definition = r.definition
  lock_eq : o.lock = r.lock
  later : o.state = .suspended → ∃ t, o.resumeAt = some t ∧ time.micros < t.micros

namespace Run.Onward

/-- A row that is not suspended is due at no time. -/
theorem of_ne (id_eq : o.id = r.id) (definition_eq : o.definition = r.definition)
    (lock_eq : o.lock = r.lock) (ne : o.state ≠ .suspended) : r.Onward time o :=
  ⟨id_eq, definition_eq, lock_eq, fun h => absurd h ne⟩

theorem of_conceded {o' : Run} (h : r.Onward time o) (conceded : o.Conceded o') :
    r.Onward time o' := by
  rcases conceded with rfl | ⟨-, when, rfl⟩
  · exact h
  · exact .of_ne h.id_eq h.definition_eq h.lock_eq (by simp [Database.ended])

/-- A delay that begins at `since` ends after it. -/
theorem of_suspend {since resumeAt : Instant} (h : r.Onward time o)
    (lasting : Lasting G r.definition) (begun : time.micros ≤ since.micros)
    (timely : ∃ minutes, o.OnDelay G minutes ∧ since.addMinutes minutes = .ok resumeAt)
    (node : String) (now : Instant) :
    r.Onward time { o with
      node := node, state := .suspended, resumeAt := some resumeAt, updatedAt := now } := by
  refine ⟨h.id_eq, h.definition_eq, h.lock_eq, fun _ => ⟨resumeAt, rfl, ?_⟩⟩
  obtain ⟨minutes, ⟨g, n, hg, hn, hconfig⟩, hresume⟩ := timely
  have long : 1 ≤ minutes :=
    lasting g (h.definition_eq ▸ hg) n (List.mem_of_find?_eq_some hn) minutes hconfig
  have hdue := Instant.micros_of_addMinutes hresume
  have hunit : (Instant.microsPerMinute : Int) = 60000000 := rfl
  rw [Instant.afterMinutes, hunit] at hdue
  omega

end Run.Onward

/-- A command from within an advance lets a row go onward. -/
theorem RunCommand.exists_onward {c : RunCommand} {db : Database} {since now : Instant}
    (allowed : c.Allowed G .own db) (timely : c.Timely G since db)
    (lasting : Lasting G r.definition) (begun : time.micros ≤ since.micros) (ho : o ∈ db.runs) (h : r.Onward time o) :
    ∃ o' ∈ (c.perform now db).runs, r.Onward time o' := by
  cases c with
  | create id d contact node event chainDepth =>
    refine ⟨o, ?_, h⟩
    rcases db.createRun_cases now id d contact node event chainDepth with ⟨-, heq⟩ | ⟨-, heq⟩ <;>
      rw [perform, heq]
    · exact ho
    · exact List.mem_append_left _ ho
  | moveTo =>
    exact Database.exists_mem_updateRun ho h fun _ _ =>
      ⟨h.id_eq, h.definition_eq, h.lock_eq, h.later⟩
  | suspend run node resumeAt =>
    exact Database.exists_mem_updateRun ho h fun hid _ =>
      h.of_suspend lasting begun (timely o ho hid) node now
  | complete | fail =>
    exact Database.exists_mem_updateRun ho h fun _ _ =>
      .of_ne h.id_eq h.definition_eq h.lock_eq (by simp [Database.ended])
  | cancel | claimSuspended | release | claimStale => exact allowed.elim

/-- A run goes onward in every step of an execution. -/
theorem Step.onward {w w' : World σ} (h : Step env G .own w w') (lasting : Lasting G r.definition)
    (hw : time.micros ≤ w.clock.micros ∧ ∃ o ∈ w.db.runs, r.Onward time o) :
    time.micros ≤ w'.clock.micros ∧ ∃ o ∈ w'.db.runs, r.Onward time o := by
  obtain ⟨begun, o, ho, honward⟩ := hw
  obtain ⟨later, conceded | ⟨d, c, conceded, allowed, timely, hdb⟩ | ⟨d, record, conceded, -, hdb⟩⟩
    := h.timed
  all_goals
    refine ⟨begun.trans later, ?_⟩
    obtain ⟨o', ho', hc⟩ := conceded.exists_after ho
    have honward' := honward.of_conceded hc
  · exact ⟨o', ho', honward'⟩
  · rw [hdb]
    exact RunCommand.exists_onward allowed timely lasting begun ho' honward'
  · rw [hdb]
    exact ⟨o', ho', honward'⟩

namespace Engine

variable {ds : List Definition} {w : World σ}

/-- With a database that does not fail, the execution of a running run ends with the run at rest,
and not due at `time`. -/
theorem exists_runFrom_onward (reliable : env.host.Reliable) (kept : Kept G ds w)
    (begun : time.micros ≤ w.clock.micros) (row : w.db.run? r.id = some r)
    (running : r.state = .running) (lasting : Lasting G r.definition) (resuming : Bool) :
    ∃ out w' r', (runFrom env (routeFollowUps env) resuming r.id).run w = (.ok out, w') ∧
      w'.db.run? r.id = some r' ∧ r.Onward time r' ∧ r'.state ≠ .running := by
  have stored : r ∈ w.db.runs := List.mem_of_find?_eq_some row
  obtain ⟨⟨out, w', hrun, -, r', found, rests, -⟩, -⟩ :=
    advance_ends env reliable w kept.1.ids kept.1.attempts r stored resuming
  have executed : (if resuming then resume env r.id else advance env r.id) =
      runFrom env (routeFollowUps env) resuming r.id := by
    cases resuming <;> rfl
  rw [executed] at hrun
  refine ⟨out, w', r', hrun, found, ?_, rests⟩
  have goes : Goes env G .own ds (runFrom env (routeFollowUps env) resuming r.id) :=
    goes_runFrom goes_routeFollowUps resuming r.id fun _ _ => trivial
  obtain ⟨kept', -, o, ho, honward⟩ := goes.keep_run
    (I := fun w => time.micros ≤ w.clock.micros ∧ ∃ o ∈ w.db.runs, r.Onward time o)
    (fun _ _ h => h.onward lasting)
    ⟨kept, begun, r, stored, .of_ne rfl rfl rfl (by simp [running])⟩
  rw [hrun] at kept' ho
  have hrow := Distinct.run?_eq_some kept'.1.ids ho
  rw [honward.id_eq, found] at hrow
  exact Option.some.inj hrow ▸ honward

end Engine

end CrmAutomation
