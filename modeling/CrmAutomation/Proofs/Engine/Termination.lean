import CrmAutomation.Proofs.Engine.Asking
import CrmAutomation.Proofs.Engine.Routing

/-!
# Every advance ends

With a database that does not fail, an advance of a stored run ends without a failure, whatever its
graph is and whatever the services answer (`Engine.advance_ends`). It makes no more steps than the
graph has nodes, and one; an action step makes no more attempts than the strategy allows; and in
the end the run is not running. What is told of its state stays true while the follow-up events
are handled, since without claims no step touches a run at rest (`rests_of_step`), unless the run
is cancelled, which only the host does (`Host.Spares`).
-/

namespace CrmAutomation

variable {σ : Type}

/-- A host that never cancels the run. -/
structure Host.Spares (host : Host σ) (id : String) : Prop where
  storage : ∀ call db s, id ∉ (host.storage call db s).1.cancelled
  service : ∀ call db s, id ∉ (host.service call db s).1.cancelled
  wait : ∀ delay db s, id ∉ (host.wait delay db s).1

/-- The most steps that an advance of a run of the definition makes. -/
def World.stepLimit (w : World σ) (definition : String) : Nat :=
  match w.graphFor? definition with
  | some g => g.size + 1
  | none => 0

/-! ## Runs at rest -/

namespace RunCommand

variable {G : String → Graph → Prop} {c : RunCommand} {db : Database} {r : Run} {now : Instant}

/-- Commands from within an advance leave a run alone that is not running. -/
theorem mem_perform (allowed : c.Allowed G .own db) (hr : r ∈ db.runs)
    (hidle : r.state ≠ .running) : r ∈ (c.perform now db).runs := by
  have hguard : Database.isRunning r = false := by simpa [Database.isRunning] using hidle
  cases c with
  | create =>
    simp only [perform, Database.createRun]
    split
    · exact hr
    · exact List.mem_append_left _ hr
  | moveTo | suspend | complete | fail => exact Database.mem_updateRun hr hguard
  | cancel | claimSuspended | release | claimStale => exact allowed.elim

/-- Commands from within an advance cancel nothing. -/
theorem exists_of_mem_perform_cancelled (allowed : c.Allowed G .own db)
    (hr : r ∈ (c.perform now db).runs) (hcancelled : r.state = .cancelled) : r ∈ db.runs := by
  have hwritten : ∀ {id : String} {guard : Run → Bool} {change : Run → Run},
      r ∈ (db.updateRun id guard change).2.runs →
      (∀ o, r = change o → o.state ≠ .cancelled → r.state ≠ .cancelled) →
      (∀ o, guard o → o.state ≠ .cancelled) → r ∈ db.runs := by
    intro id guard change hmem hchange hguard
    obtain ⟨o, ho, rfl | ⟨-, hg, heq⟩⟩ := Database.exists_of_mem_updateRun hmem
    · exact ho
    · exact absurd hcancelled (hchange o heq (hguard o hg))
  have hrunning : ∀ o, Database.isRunning o → o.state ≠ .cancelled := by
    intro o ho
    simp [running_of_isRunning ho]
  cases c with
  | create =>
    simp only [perform, Database.createRun] at hr
    split at hr
    · exact hr
    · rcases List.mem_append.1 hr with hr | hr
      · exact hr
      · rw [List.mem_singleton.1 hr] at hcancelled
        cases hcancelled
  | moveTo => exact hwritten hr (fun o heq ho => heq ▸ ho) hrunning
  | suspend | complete | fail =>
    exact hwritten hr (fun o heq _ => by simp [heq, Database.ended]) hrunning
  | cancel | claimSuspended | release | claimStale => exact allowed.elim

end RunCommand

/-- The run was not cancelled. -/
def Uncancelled (id : String) (db : Database) : Prop :=
  ∀ r ∈ db.runs, r.id = id → r.state ≠ .cancelled

theorem Uncancelled.cancelAll {id : String} {time : Instant} {ids : List String} {db : Database}
    (h : Uncancelled id db) (hids : id ∉ ids) : Uncancelled id (Engine.cancelAll time ids db) := by
  induction ids generalizing db with
  | nil => exact h
  | cons other ids ih =>
    simp only [List.mem_cons, not_or] at hids
    refine ih (fun r hr hid => ?_) hids.2
    obtain ⟨o, ho, rfl⟩ := List.mem_map.1 hr
    by_cases htarget : (o.id == other && o.state.isActive) = true
    · simp only [htarget, if_true] at hid
      simp only [Bool.and_eq_true, beq_iff_eq] at htarget
      exact absurd (hid.symm.trans htarget.1) hids.1
    · simp only [htarget] at hid ⊢
      exact h o ho hid

namespace Engine

variable {env : Environment σ} {G : String → Graph → Prop} {id : String} {w w' : World σ}

/-- A run at rest stays at rest as long as it is not claimed. -/
theorem rests_of_step {s : RunState} (h : Step env G .own w w') (hw : Rests id s w) :
    Rests id s w' := by
  obtain ⟨hs, r, hr, hid, hstate⟩ := hw
  have hafter : ∀ d, w.db.Concedes d → ∃ r ∈ d.runs, r.id = id ∧
      (r.state = s ∨ r.state = .cancelled) := by
    intro d hd
    obtain ⟨r', hr', hc⟩ := hd.exists_after hr
    refine ⟨r', hr', hc.id_eq.trans hid, ?_⟩
    rcases hc.state_eq with heq | heq
    · rwa [heq]
    · exact Or.inr heq
  generalize hd : w'.db = d
  refine ⟨hs, hd.symm ▸ ?_⟩
  cases hd ▸ h.effect with
  | concede conceded => exact hafter _ conceded
  | record conceded o _ =>
    obtain ⟨r', hr', hid', hstate'⟩ := hafter _ conceded
    exact ⟨r', hr', hid', hstate'⟩
  | command conceded now c allowed =>
    obtain ⟨r', hr', hid', hstate'⟩ := hafter _ conceded
    refine ⟨r', c.mem_perform allowed hr' ?_, hid', hstate'⟩
    rcases hstate' with heq | heq
    · rwa [heq]
    · simp [heq]

/-- A run that the host spares is not cancelled in an advance. -/
theorem uncancelled_of_step (spares : env.host.Spares id) (h : Step env G .own w w')
    (hw : Uncancelled id w.db) : Uncancelled id w'.db := by
  have hinterrupted : ∀ call, Uncancelled id (w.interrupted env call).db := fun call =>
    hw.cancelAll (spares.storage call w.db w.host)
  have hperform : ∀ (c : RunCommand) (now : Instant) (d : Database), c.Allowed G .own d →
      Uncancelled id d → Uncancelled id (c.perform now d) :=
    fun c now d allowed hd r hr hid hstate =>
      hd r (c.exists_of_mem_perform_cancelled allowed hr hstate) hid hstate
  cases h with
  | tick | name | draw | remember | turn => exact hw
  | wait delay => exact hw.cancelAll (spares.wait delay w.db w.host)
  | interrupt call => exact hinterrupted call
  | serve call => exact hw.cancelAll (spares.service call w.db w.host)
  | command call c _ allowed => exact hperform c _ _ allowed (hinterrupted call)
  | create d contact node event chainDepth allowed => exact hperform _ _ _ allowed hw
  | record r => exact hinterrupted .record

end Engine

/-! ## Advances -/

/-- The world in which a run is read that is to be executed. -/
def World.read (env : Environment σ) (resuming : Bool) (w : World σ) : World σ :=
  (w.interrupted env (if resuming then .resume else .advance)).interrupted env .getRun

theorem World.concedes_read (env : Environment σ) (resuming : Bool) (w : World σ) :
    w.db.Concedes (w.read env resuming).db :=
  (w.concedes_interrupted env _).trans (World.concedes_interrupted env .getRun _)

theorem World.graphFor?_read (env : Environment σ) (resuming : Bool) (w : World σ) (id : String) :
    (w.read env resuming).graphFor? id = w.graphFor? id := by
  have hgraphs : (w.read env resuming).graphs = w.graphs := rfl
  simp only [World.graphFor?, hgraphs, Database.graph?, Database.definition?,
    (w.concedes_read env resuming).definitions_eq]

theorem World.stepLimit_read (env : Environment σ) (resuming : Bool) (w : World σ) (id : String) :
    (w.read env resuming).stepLimit id = w.stepLimit id := by
  rw [World.stepLimit, World.stepLimit, World.graphFor?_read]

theorem Distinct.run?_eq_some {w : World σ} (h : Distinct w) {r : Run} (hr : r ∈ w.db.runs) :
    w.db.run? r.id = some r :=
  Database.find?_key h hr

namespace Engine

variable {env : Environment σ} {w : World σ} {run : Run}

/-- With a database that does not fail, a run is read and executed. -/
theorem run_runFrom (reliable : env.host.Reliable) (route : List Event → Engine σ Unit)
    (resuming : Bool) (hrun : (w.read env resuming).db.run? run.id = some run) :
    (runFrom env route resuming run.id).run w =
      (if run.state ≠ .running then pure { run := run.id, state := some run.state }
        else do
          let o ← walkRun env resuming run
          if !o.emitted.isEmpty then
            let _ ← attempt (route o.emitted)
          return o : Engine σ Outcome).run (w.read env resuming) := by
  have hlook : (look env .getRun fun db => db.run? run.id).run
      (w.interrupted env (if resuming then .resume else .advance)) =
      (.ok (some run), w.read env resuming) := by
    rw [look, run_interrupt_bind, reliable]
    exact congrArg (fun found => (Except.ok found, w.read env resuming)) hrun
  unfold runFrom
  rw [run_interrupt_bind, reliable]
  dsimp only
  rw [run_bind, hlook]

/-- An execution does nothing before it has read its run, and walks it if it is running. -/
theorem runFrom_cases (env : Environment σ) (route : List Event → Engine σ Unit)
    (resuming : Bool) (id : String) (w : World σ) :
    (∃ result w', (runFrom env route resuming id).run w = (result, w') ∧
      (w' = w.interrupted env (if resuming then .resume else .advance) ∨
        w' = w.read env resuming) ∧
      ∀ o, result = .ok o → o.steps = 0 ∧ o.emitted = []) ∨
    ∃ run, (w.read env resuming).db.run? id = some run ∧ run.state = .running ∧
      (runFrom env route resuming id).run w = (do
        let o ← walkRun env resuming run
        if !o.emitted.isEmpty then
          let _ ← attempt (route o.emitted)
        return o : Engine σ Outcome).run (w.read env resuming) := by
  unfold runFrom
  rw [run_interrupt_bind]
  split
  · exact Or.inl ⟨_, _, rfl, Or.inl rfl, by simp⟩
  · rw [run_bind, run_look]
    rcases (env.host.storage .getRun _ _).1.failure with _ | e
    · cases hfound : (w.read env resuming).db.run? id with
      | none =>
        rw [World.read] at hfound
        rw [hfound]
        refine Or.inl ⟨_, _, rfl, Or.inr rfl, ?_⟩
        rintro _ ⟨⟩
        exact ⟨rfl, rfl⟩
      | some run =>
        rw [World.read] at hfound
        rw [hfound]
        dsimp only
        by_cases hstate : run.state = .running
        · rw [if_neg (not_not_intro hstate)]
          exact Or.inr ⟨run, rfl, hstate, rfl⟩
        · rw [if_pos hstate]
          refine Or.inl ⟨_, _, rfl, Or.inr rfl, ?_⟩
          rintro _ ⟨⟩
          exact ⟨rfl, rfl⟩
    · exact Or.inl ⟨_, _, rfl, Or.inr rfl, by simp⟩

/-- What an execution does with the events that its run causes comes last. -/
theorem runFrom_routes (env : Environment σ) (route route' : List Event → Engine σ Unit)
    (resuming : Bool) (id : String) (w : World σ) :
    (runFrom env route resuming id).run w = (runFrom env route' resuming id).run w ∨
    ∃ run o w', run ∈ (w.read env resuming).db.runs ∧ run.id = id ∧
      (walkRun env resuming run).run (w.read env resuming) = (.ok o, w') ∧
      (runFrom env route resuming id).run w = (.ok o, ((route o.emitted).run w').2) ∧
      (runFrom env route' resuming id).run w = (.ok o, ((route' o.emitted).run w').2) := by
  unfold runFrom
  rw [run_interrupt_bind, run_interrupt_bind]
  split
  · exact Or.inl rfl
  · rw [run_bind, run_bind, run_look]
    rcases (env.host.storage .getRun _ _).1.failure with _ | e
    · dsimp only
      rw [← World.read]
      cases hfound : (w.read env resuming).db.run? id with
      | none => exact Or.inl rfl
      | some run =>
        have hid : run.id = id := by simpa using List.find?_some hfound
        dsimp only
        split
        · exact Or.inl rfl
        · rw [run_bind, run_bind]
          rcases hwalk : (walkRun env resuming run).run (w.read env resuming) with ⟨e | o, w'⟩
          · exact Or.inl rfl
          · dsimp only
            split
            · exact Or.inr ⟨run, o, w', List.mem_of_find?_eq_some hfound, hid, hwalk, rfl, rfl⟩
            · exact Or.inl rfl
    · exact Or.inl rfl

/-- What is told of a run at the end of an execution. -/
structure Concludes (env : Environment σ) (run : Run) (limit : Nat) (o : Outcome)
    (w : World σ) : Prop where
  distinct : Distinct w
  steps_le : o.steps ≤ limit
  rests : ∃ s, o.state = some s ∧ Rests run.id s w
  uncancelled : env.host.Spares run.id → run.state ≠ .cancelled → Uncancelled run.id w.db

/-- The execution of a running run ends without a failure, and so does what follows from it. -/
theorem exists_concludes (reliable : env.host.Reliable) (resuming : Bool) (distinct : Distinct w)
    (counted : ∀ r ∈ w.db.records, 0 < r.attempt) (hrun : run ∈ w.db.runs) :
    ∃ o w', (do
      let o ← walkRun env resuming run
      if !o.emitted.isEmpty then
        let _ ← attempt (routeFollowUps env o.emitted)
      return o : Engine σ Outcome).run w = (.ok o, w') ∧
      Concludes env run (w.stepLimit run.definition) o w' := by
  have hwalk : Leads (Step env (fun _ g => w.graphFor? run.definition = some g) .own) _
      (walkRun env resuming run) _ _ := leads_walkRun run resuming fun _ => trivial
  obtain ⟨hpath, hend⟩ := hwalk w ⟨distinct, ⟨run, hrun, rfl, rfl, rfl⟩, fun g hg => hg⟩
  rw [run_bind]
  rcases hw : (walkRun env resuming run).run w with ⟨e | o, w₁⟩ <;> rw [hw] at hpath hend
  · exact absurd reliable hend.1
  · obtain ⟨hbounded, s, hs, hrests⟩ := hend
    have hsteps : o.steps ≤ w.stepLimit run.definition := by
      rcases hbounded with hzero | ⟨g, hg, hle⟩
      · omega
      · rwa [World.stepLimit, hg]
    have hspared : env.host.Spares run.id → run.state ≠ .cancelled → Uncancelled run.id w₁.db := by
      intro spares hstate
      refine hpath.keep (I := fun w => Uncancelled run.id w.db)
        (fun _ _ h => uncancelled_of_step spares h) fun r hr hid => ?_
      rwa [distinct.eq_of_id_eq hr hrun hid]
    have hsound : Sound (fun _ _ => True) w₁ :=
      ⟨hpath.keep (I := Distinct) (fun _ _ h => h.effect.nodup_ids) distinct,
        hpath.keep (I := fun w => ∀ r ∈ w.db.records, 0 < r.attempt)
          (fun _ _ h => h.effect.attempts_pos) counted, fun _ _ _ _ => trivial, fun _ _ => trivial⟩
    dsimp only
    split
    · have hroute : Goes env (fun _ _ => True) .own w₁.db.definitions
          (routeFollowUps env o.emitted) := goes_routeFollowUps _
      obtain ⟨hpath', -⟩ := hroute w₁ ⟨hsound, rfl⟩
      refine ⟨o, ((routeFollowUps env o.emitted).run w₁).2, by rw [run_bind]; rfl,
        hpath'.keep (I := Distinct) (fun _ _ h => h.effect.nodup_ids) hsound.ids, hsteps,
        ⟨s, hs, hpath'.keep (fun _ _ => rests_of_step) hrests⟩, fun spares hstate => ?_⟩
      exact hpath'.keep (I := fun w => Uncancelled run.id w.db)
        (fun _ _ h => uncancelled_of_step spares h) (hspared spares hstate)
    · exact ⟨o, w₁, rfl, hsound.ids, hsteps, ⟨s, hs, hrests⟩, hspared⟩

/-- With a database that does not fail, an advance of a stored run ends with the run at rest. -/
theorem leads_advance_rests {ds : List Definition} (reliable : env.host.Reliable) (id : String) :
    Leads (Step env G .own) (fun w => Kept G ds w ∧ ∃ r ∈ w.db.runs, r.id = id) (advance env id)
      (fun _ w => Kept G ds w ∧ ∃ s, Rests id s w) fun _ => False := by
  rintro w ⟨hkept, r, hr, rfl⟩
  have hgoes : Goes env G .own ds (advance env r.id) := goes_advance r.id
  obtain ⟨hpath, hend⟩ := stays_iff.1 hgoes w hkept
  refine ⟨hpath, ?_⟩
  have hconcedes := w.concedes_read env false
  have hdistinct : Distinct (w.read env false) := calm_distinct w _ hconcedes hkept.1.ids
  obtain ⟨o, ho, hc⟩ := hconcedes.exists_after hr
  have hrun := run_runFrom reliable (routeFollowUps env) false (hdistinct.run?_eq_some ho)
  rw [hc.id_eq] at hrun
  rw [advance] at hend ⊢
  rw [hrun] at hend ⊢
  by_cases hstate : o.state ≠ .running
  · rw [if_pos hstate] at hend ⊢
    exact ⟨hend, o.state, hstate, o, ho, hc.id_eq, Or.inl rfl⟩
  · rw [if_neg hstate] at hend ⊢
    obtain ⟨out, w', heq, hout⟩ := exists_concludes reliable false hdistinct
      (hconcedes.records_eq ▸ hkept.1.attempts) ho
    rw [heq] at hend ⊢
    obtain ⟨s, -, hrests⟩ := hout.rests
    exact ⟨hend, s, hc.id_eq ▸ hrests⟩

/-- With a database that does not fail, runs that are stored come to rest one after the other, and
stay so while the others are executed. -/
theorem leads_advanceAll_rests {ds : List Definition} (reliable : env.host.Reliable) :
    ∀ l : List Run, Leads (Step env G .own)
      (fun w => Kept G ds w ∧ ∀ run ∈ l, ∃ r ∈ w.db.runs, r.id = run.id)
      (advanceAll env (routeFollowUps env) l)
      (fun _ w => Kept G ds w ∧ ∀ run ∈ l, ∃ s, Rests run.id s w) fun _ => False
  | [] => .pure _ fun w hw => ⟨hw.1, by simp⟩
  | run :: l => by
    have stored : ∀ w w' : World σ, Step env G .own w w' →
        (∀ run ∈ l, ∃ r ∈ w.db.runs, r.id = run.id) → ∀ run ∈ l, ∃ r ∈ w'.db.runs, r.id = run.id :=
      fun w w' h hl run hrun => h.effect.exists_id (hl run hrun)
    have rests : ∀ w w' : World σ, Step env G .own w w' → (∃ s, Rests run.id s w) →
        ∃ s, Rests run.id s w' := by
      rintro w w' h ⟨s, hs⟩
      exact ⟨s, rests_of_step h hs⟩
    refine .bind (B := fun _ w => (∀ run ∈ l, ∃ r ∈ w.db.runs, r.id = run.id) ∧
      Kept G ds w ∧ ∃ s, Rests run.id s w) (((leads_advance_rests reliable run.id).keep
        stored).conseq (fun w hw => ⟨fun o ho => hw.2 o (List.mem_cons_of_mem _ ho), hw.1,
          hw.2 run List.mem_cons_self⟩) (fun _ _ hw => hw) fun _ hw => hw.2) fun _ => ?_
    refine .bind (B := fun _ w => (∃ s, Rests run.id s w) ∧ Kept G ds w ∧
      ∀ run ∈ l, ∃ s, Rests run.id s w) (((leads_advanceAll_rests reliable l).keep rests).conseq
        (fun w hw => ⟨hw.2.2, hw.2.1, hw.1⟩) (fun _ _ hw => hw) fun _ hw => hw.2) fun _ => ?_
    refine .pure _ fun w hw => ⟨hw.2.1, fun o ho => ?_⟩
    rcases List.mem_cons.1 ho with rfl | ho
    · exact hw.1
    · exact hw.2.2 o ho

/-- An advance of a stored run ends without a failure when the database does not fail, whatever its
graph is, whatever the services answer and however often runs are cancelled meanwhile. It makes at
most one step more than its graph has nodes. Afterwards the run is not running, and its state is
the one that is told unless it was cancelled by others. An action step, from whatever state of the
run and the world, makes at most as many attempts as the strategy allows, each one with at most one
call besides the one that asks for the contact. (A strategy made from settings allows one at least;
one that allows none still lets a node be visited again that succeeded before.) What is asked of the
tables at the start is true in every history (`Sound`). -/
theorem advance_ends (env : Environment σ) (reliable : env.host.Reliable) (w : World σ)
    (distinct : (w.db.runs.map (·.id)).Nodup) (counted : ∀ r ∈ w.db.records, 0 < r.attempt)
    (run : Run) (stored : run ∈ w.db.runs) (resuming : Bool) :
    (∃ o w', (if resuming then resume env run.id else advance env run.id).run w = (.ok o, w') ∧
      o.steps ≤ w.stepLimit run.definition ∧
      ∃ r, w'.db.run? run.id = some r ∧ r.state ≠ .running ∧
        (o.state = some r.state ∨ r.state = .cancelled) ∧
        (env.host.Spares run.id → o.state = some r.state)) ∧
    ∀ (g : Graph) (run : Run) (node : Node) (p : Progress) (w : World σ),
      (∀ r ∈ w.db.records, 0 < r.attempt) →
      ∃ made, ((executeAction env g run node).run (p, w)).2.2.calls = w.calls ++ made ∧
        AreAttempts run.id node.id (max 1 env.rules.strategy.maxAttempts).toNat made := by
  refine ⟨?_, fun g run node p w counted => asks_executeAction g run node p w counted⟩
  have hconcedes := w.concedes_read env resuming
  have hdistinct : Distinct (w.read env resuming) := calm_distinct w _ hconcedes distinct
  obtain ⟨o, ho, hc⟩ := hconcedes.exists_after stored
  have hexecute : (if resuming then resume env run.id else advance env run.id)
      = runFrom env (routeFollowUps env) resuming o.id := by
    rw [hc.id_eq]
    cases resuming <;> rfl
  rw [hexecute, run_runFrom reliable _ _ (hdistinct.run?_eq_some ho), ← hc.id_eq,
    ← hc.definition_eq, ← w.stepLimit_read env resuming]
  split
  · rename_i hstate
    exact ⟨_, _, rfl, Nat.zero_le _, o, hdistinct.run?_eq_some ho, hstate, Or.inl rfl, fun _ => rfl⟩
  · rename_i hstate
    have hrunning : o.state ≠ .cancelled := by simp_all
    obtain ⟨out, w', heq, hout⟩ := exists_concludes reliable resuming hdistinct
      (hconcedes.records_eq ▸ counted) ho
    obtain ⟨s, hs, hne, r, hr, hid, hrest⟩ := hout.rests
    refine ⟨out, w', heq, hout.steps_le, r, hid ▸ hout.distinct.run?_eq_some hr, ?_, ?_, ?_⟩
    · rcases hrest with h | h
      · rwa [h]
      · simp [h]
    · exact hrest.imp_left fun h => hs.trans (congrArg some h.symm)
    · intro spares
      rcases hrest with h | h
      · exact hs.trans (congrArg some h.symm)
      · exact absurd h (hout.uncancelled spares hrunning r hr hid)

/-- A host that does not interfere: nothing fails and nothing is cancelled, and no service
answers. -/
def undisturbed : Environment Unit where
  host := {
    freshId := fun _ _ s => ("id", s)
    draw := fun s => (.zero, s)
    storage := fun _ _ s => (⟨[], none⟩, s)
    service := fun _ _ s => (⟨[], .silence⟩, s)
    wait := fun _ _ s => ([], s) }
  rules := {
    strategy := .forActions
    actionTimeout := .ofInt 10
    webhookTimeout := .ofInt 10
    emitFollowUps := true
    maxChainDepth := 5
    batchSize := 10
    maxConcurrency := 4
    staleAfterSeconds := 900 }

/-- A graph of which the only edge leads back to the trigger. -/
def circle : Graph := ⟨[⟨"start", .trigger "contact_created" none none, ""⟩], [⟨0, 0, .default⟩]⟩

/-- A world with a run on `circle`. -/
def circling : World Unit where
  db := Database.begun
  clock := ⟨9⟩
  graphs := [("welcome-1", circle)]
  turns := []
  calls := []
  waits := []
  host := ()

/-- A run that goes in a circle is stopped after two steps. -/
theorem advance_ends_of_circling :
    undisturbed.host.Reliable ∧ undisturbed.host.Spares "run-1" ∧
    (circling.db.runs.map (·.id)).Nodup ∧ (∀ r ∈ circling.db.records, 0 < r.attempt) ∧
    (∃ run ∈ circling.db.runs, run.id = "run-1" ∧ run.state = .running) ∧
    circling.stepLimit "welcome-1" = 2 ∧
    ∃ o w', (advance undisturbed "run-1").run circling = (.ok o, w') ∧ o.steps ≤ 2 ∧
      ∃ r, w'.db.run? "run-1" = some r ∧ r.state ≠ .running ∧ o.state = some r.state := by
  have reliable : undisturbed.host.Reliable := fun _ _ _ => rfl
  have spares : undisturbed.host.Spares "run-1" := by
    constructor <;> intros <;> exact List.not_mem_nil
  have distinct : (circling.db.runs.map (·.id)).Nodup := by decide
  have counted : ∀ r ∈ circling.db.records, 0 < r.attempt := fun r hr => absurd hr List.not_mem_nil
  have limit : circling.stepLimit "welcome-1" = 2 := by decide
  obtain ⟨run, stored, hid, hdefinition, hstate⟩ : ∃ run ∈ circling.db.runs,
      run.id = "run-1" ∧ run.definition = "welcome-1" ∧ run.state = .running :=
    ⟨_, List.mem_singleton_self _, rfl, rfl, rfl⟩
  obtain ⟨⟨o, w', heq, hsteps, r, hr, hidle, -, hspared⟩, -⟩ :=
    advance_ends undisturbed reliable circling distinct counted run stored false
  rw [hid] at heq hr hspared
  rw [hdefinition, limit] at hsteps
  exact ⟨reliable, spares, distinct, counted, ⟨run, stored, hid, hstate⟩, limit,
    o, w', heq, hsteps, r, hr, hidle, hspared spares⟩

end Engine

end CrmAutomation
