import CrmAutomation.Proofs.Engine.Attempt

/-!
# Walking a run along its graph

While a run is executed it is in the database on the node that the walk is on, and once the walk
tells a state for it, the run rests in that state or was cancelled (`Walks`). Every part of the
executor keeps this, and where it ends early, either something failed or the run is not running any
more (`Ends`). The conditions of the steps follow: a run is moved where the graph leads from the
node in the database (`Onward`), and what is recorded is about that node.

The bound on the steps is part of the assertions: a walk of at most `n` nodes counts at most `n`.
-/

namespace CrmAutomation

variable {σ : Type}

/-! ## Assertions -/

/-- No two rows of the table of runs share an id. -/
def Distinct (w : World σ) : Prop := (w.db.runs.map (·.id)).Nodup

/-- The run is at rest in the state, or was cancelled. -/
def Rests (id : String) (s : RunState) (w : World σ) : Prop :=
  s ≠ .running ∧ ∃ r ∈ w.db.runs, r.id = id ∧ (r.state = s ∨ r.state = .cancelled)

/-- The run is not running. -/
def Idle (id : String) (w : World σ) : Prop := ∃ r ∈ w.db.runs, r.id = id ∧ r.state ≠ .running

/-- A walk of at most `k` steps so far is where the database has its run, and what its outcome tells
of the run is true. -/
structure Walks (run : Run) (k : Nat) (p : Progress) (w : World σ) : Prop where
  distinct : Distinct w
  stands : Stands run p.node w
  steps_le : p.outcome.steps ≤ k
  told : ∀ s, p.outcome.state = some s → Rests run.id s w

/-- How a walk ends early: it was stopped because its run is not running, or something failed. -/
def Ends (run : Run) (k : Nat) : Halt → Progress → World σ → Prop
  | .stopped, p, w =>
    p.outcome.steps ≤ k ∧ Idle run.id w ∧ ∀ s, p.outcome.state = some s → Rests run.id s w
  | .failed _, p, _ => p.outcome.steps ≤ k

/-- The graph of the run leads to `next` from the node that the run is on and may leave. -/
def Onward (G : String → Graph → Prop) (scope : Scope) (run : Run) (next : Option String)
    (w : World σ) : Prop :=
  ∃ g, G run.definition g ∧
    ∀ r ∈ w.db.runs, r.id = run.id → g.Follows w.db r next ∧ g.MayLeave scope w.db r

theorem calm_distinct : Calm (Distinct (σ := σ)) := by
  intro w w' h hw
  rw [Distinct, h.ids_eq]
  exact hw

theorem calm_rests (id : String) (s : RunState) : Calm (Rests (σ := σ) id s) := by
  rintro w w' h ⟨hs, r, hr, hid, hstate⟩
  obtain ⟨r', hr', hc⟩ := h.exists_after hr
  refine ⟨hs, r', hr', hc.id_eq.trans hid, ?_⟩
  rcases hc.state_eq with heq | heq
  · rwa [heq]
  · exact Or.inr heq

theorem calm_idle (id : String) : Calm (Idle (σ := σ) id) := by
  rintro w w' h ⟨r, hr, hid, hstate⟩
  obtain ⟨r', hr', hc⟩ := h.exists_after hr
  refine ⟨r', hr', hc.id_eq.trans hid, ?_⟩
  rcases hc.state_eq with heq | heq
  · rwa [heq]
  · simp [heq]

theorem calm_walks (run : Run) (k : Nat) (p : Progress) : Calm (Walks (σ := σ) run k p) :=
  fun w w' h hw => ⟨calm_distinct w w' h hw.distinct, calm_stands _ _ w w' h hw.stands,
    hw.steps_le, fun s hs => calm_rests _ s w w' h (hw.told s hs)⟩

theorem calm_onward (G : String → Graph → Prop) (scope : Scope) (run : Run)
    (next : Option String) : Calm (Onward (σ := σ) G scope run next) := by
  rintro w w' h ⟨g, hg, hfollows⟩
  refine ⟨g, hg, fun r' hr' hid => ?_⟩
  obtain ⟨r, hr, hc⟩ := h.exists_before hr'
  exact (hfollows r hr (hc.id_eq.symm.trans hid)).imp (Graph.Follows.of_concedes h hc).2
    (Graph.MayLeave.of_concedes h hc).2

/-- The row of a run is the only one with its id. -/
theorem Distinct.eq_of_id_eq {w : World σ} (h : Distinct w) {a b : Run} (ha : a ∈ w.db.runs)
    (hb : b ∈ w.db.runs) (hid : a.id = b.id) : a = b :=
  List.inj_on_of_nodup_map h ha hb hid

namespace Walks

variable {run r : Run} {k : Nat} {p : Progress} {w : World σ}

theorem failed (h : Walks run k p w) (f : Failure) : Ends run k (.failed f) p w := h.steps_le

theorem mono {m : Nat} (h : Walks run k p w) (hk : k ≤ m) : Walks run m p w :=
  ⟨h.distinct, h.stands, Nat.le_trans h.steps_le hk, h.told⟩

theorem definition_eq (h : Walks run k p w) (hr : r ∈ w.db.runs) (hid : r.id = run.id) :
    r.definition = run.definition := by
  obtain ⟨o, ho, hoid, hdefinition, -⟩ := h.stands
  rwa [h.distinct.eq_of_id_eq hr ho (hid.trans hoid.symm)]

theorem node_eq (h : Walks run k p w) (hr : r ∈ w.db.runs) (hid : r.id = run.id) :
    r.node = p.node := by
  obtain ⟨o, ho, hoid, -, hnode⟩ := h.stands
  rwa [h.distinct.eq_of_id_eq hr ho (hid.trans hoid.symm)]

/-- While the run is running nothing was told of it. -/
theorem state_eq_none (h : Walks run k p w) (hr : r ∈ w.db.runs) (hid : r.id = run.id)
    (hrunning : r.state = .running) : p.outcome.state = none := by
  rcases hs : p.outcome.state with _ | s
  · rfl
  · obtain ⟨hne, o, ho, hoid, hstate⟩ := h.told s hs
    obtain rfl := h.distinct.eq_of_id_eq hr ho (hid.trans hoid.symm)
    rcases hstate with heq | heq
    · exact absurd (heq.symm.trans hrunning) hne
    · simp [heq] at hrunning

/-- A walk may tell the state in which its run rests. -/
theorem settled {s : RunState} (h : Walks run k p w) (hs : Rests run.id s w) :
    Walks run k { p with outcome := { p.outcome with state := some s } } w := by
  refine ⟨h.distinct, h.stands, h.steps_le, ?_⟩
  rintro _ ⟨⟩
  exact hs

/-- A walk that cannot write stops. -/
theorem stopped (h : Walks run k p w)
    (hidle : ∀ r ∈ w.db.runs, r.id = run.id → r.state ≠ .running) : Ends run k .stopped p w := by
  obtain ⟨o, ho, hoid, -⟩ := h.stands
  exact ⟨h.steps_le, ⟨o, ho, hoid, hidle o ho hoid⟩, h.told⟩

end Walks

theorem Ends.mono {run : Run} {k m : Nat} {halt : Halt} {p : Progress} {w : World σ}
    (h : Ends run k halt p w) (hk : k ≤ m) : Ends run m halt p w := by
  cases halt with
  | stopped => exact ⟨Nat.le_trans h.1 hk, h.2⟩
  | failed f => exact Nat.le_trans h hk

/-! ## Progress -/

namespace Database

variable {id : String} {change : Run → Run} {db : Database}

/-- A write that is refused found the run not running, and changes nothing. -/
theorem updateRun_eq_false (h : (db.updateRun id isRunning change).1 = false) :
    (db.updateRun id isRunning change).2 = db ∧ ∀ r ∈ db.runs, r.id = id → r.state ≠ .running := by
  simp only [updateRun, List.any_eq_false, Bool.and_eq_true, beq_iff_eq, not_and] at h
  constructor
  · have hmap : db.runs.map (fun r => if r.id == id && isRunning r then change r else r)
        = db.runs := by
      refine (List.map_congr_left fun r hr => ?_).trans (List.map_id' _)
      simp only [Bool.and_eq_true, beq_iff_eq]
      exact if_neg fun hboth => h r hr hboth.1 hboth.2
    simp only [updateRun, hmap]
  · intro r hr hid hrunning
    exact h r hr hid (by simp [isRunning, hrunning])

/-- A write that succeeds changed a running run. -/
theorem updateRun_eq_true (h : (db.updateRun id isRunning change).1 = true) :
    ∃ r ∈ db.runs, r.id = id ∧ r.state = .running ∧
      change r ∈ (db.updateRun id isRunning change).2.runs := by
  simp only [updateRun, List.any_eq_true] at h
  obtain ⟨r, hr, htarget⟩ := h
  refine ⟨r, hr, ?_⟩
  have hmem := List.mem_map_of_mem
    (f := fun r => if r.id == id && isRunning r then change r else r) hr
  simp only [htarget, if_true] at hmem
  simp only [Bool.and_eq_true, beq_iff_eq] at htarget
  exact ⟨htarget.1, RunCommand.running_of_isRunning htarget.2, hmem⟩

end Database

namespace Engine

variable {env : Environment σ} {G : String → Graph → Prop} {scope : Scope} {A : World σ → Prop}
  {run : Run} {k : Nat}

/-- What a guarded write to a run leaves: the running row as it was changed, or all as it was, with
the run not running. -/
theorem leads_progress {change : Instant → Run → Run} {T : Instant → Prop} (P : Run → Prop)
    (call : StorageCall)
    (c : RunCommand) (old : c.isCreate = false)
    (hc : ∀ time db, (Database.updateRun run.id Database.isRunning (change time) db).2
      = c.perform time db)
    (hA : Calm A) (hdistinct : ∀ w, A w → Distinct w)
    (hP : ∀ w, A w → ∀ r ∈ w.db.runs, r.id = run.id → P r)
    (allowed : ∀ w, A w → c.Allowed G scope w.db)
    (timely : ∀ time, T time → ∀ w, A w → c.Timely G time w.db) :
    Leads (Step env G scope) (fun w => A w ∧ T w.clock)
      (stored env call fun time => Database.updateRun run.id Database.isRunning (change time))
      (fun done w => if done then
          Distinct w ∧ ∃ time r, P r ∧ r.id = run.id ∧ r.state = .running ∧
            change time r ∈ w.db.runs
        else A w ∧ ∀ r ∈ w.db.runs, r.id = run.id → r.state ≠ .running)
      fun w => A w ∧ ¬env.host.Sure call := by
  refine leads_stored call c old hA hc allowed timely fun w hw => ?_
  split
  · rename_i hdone
    obtain ⟨r, hr, hid, hrunning, hmem⟩ := Database.updateRun_eq_true hdone
    rw [hc] at hmem
    exact ⟨c.nodup_ids_perform _ (hdistinct w hw),
      w.clock.later 1, r, hP w hw r hr hid, hid, hrunning, hmem⟩
  · rename_i hdone
    obtain ⟨hsame, hidle⟩ := Database.updateRun_eq_false (Bool.eq_false_iff.2 hdone)
    have hdb : (w.commanded c).db = w.db := by rw [World.commanded, ← hc, hsame]
    refine ⟨hA w _ (hdb.symm ▸ .refl _) hw, ?_⟩
    rw [hdb]
    exact hidle

/-- What a walk knows of the row of its run. -/
structure KnownRow (run : Run) (k : Nat) (p : Progress) (r : Run) : Prop where
  definition_eq : r.definition = run.definition
  node_eq : r.node = p.node
  state_eq_none : r.state = .running → p.outcome.state = none
  steps_le : p.outcome.steps ≤ k

theorem knownRow_of_walks {p : Progress} {w : World σ} (h : Walks run k p w) :
    ∀ r ∈ w.db.runs, r.id = run.id → KnownRow run k p r :=
  fun _ hr hid => ⟨h.definition_eq hr hid, h.node_eq hr hid, h.state_eq_none hr hid, h.steps_le⟩

/-- A run goes where the graph leads, and ends where it leads nowhere. -/
theorem leads_goOn (next : Option String) :
    Walk.Leads (Step env G scope) (fun p w => Walks run k p w ∧ Onward G scope run next w)
      (goOn env run.id next) (fun _ => Walks run k) (Ends run k) := by
  have calm : ∀ p, Calm (σ := σ) fun w => Walks run k p w ∧ Onward G scope run next w :=
    fun p => (calm_walks run k p).and (calm_onward G scope run next)
  have follows : ∀ (p : Progress) (w : World σ), Walks run k p w ∧ Onward G scope run next w →
      ∀ r ∈ w.db.runs, r.id = run.id → ∃ g, G r.definition g ∧ g.Follows w.db r next ∧
        g.MayLeave scope w.db r := by
    rintro p w ⟨hw, g, hg, hfollows⟩ r hr hid
    exact ⟨g, hw.definition_eq hr hid ▸ hg, hfollows r hr hid⟩
  unfold goOn
  cases next with
  | none =>
    refine .bind (.engine (fun p => (leads_progress (T := fun _ => True) (KnownRow run k p)
      .complete (.complete run.id) rfl (fun _ _ => rfl) (calm p) (fun w hw => hw.1.distinct)
      (fun w hw => knownRow_of_walks hw.1) (follows p) fun _ _ _ _ => trivial).pre
      fun w hw => ⟨hw, trivial⟩) fun f p w hw => hw.1.1.failed f) fun done => ?_
    cases done with
    | true =>
      refine .settle fun p w hw => ?_
      obtain ⟨hdistinct, time, r, known, hid, -, hmem⟩ := hw
      refine ⟨hdistinct, ⟨_, hmem, hid, known.definition_eq, known.node_eq⟩, known.steps_le, ?_⟩
      rintro s ⟨⟩
      exact ⟨by simp, _, hmem, hid, Or.inl rfl⟩
    | false => exact .halt fun p w hw => hw.1.1.stopped hw.2
  | some node =>
    refine .bind (.engine (fun p => (leads_progress (T := fun _ => True) (KnownRow run k p)
      .moveTo (.moveTo run.id node) rfl (fun _ _ => rfl) (calm p) (fun w hw => hw.1.distinct)
      (fun w hw => knownRow_of_walks hw.1) (follows p) fun _ _ _ _ => trivial).pre
      fun w hw => ⟨hw, trivial⟩) fun f p w hw => hw.1.1.failed f) fun done => ?_
    cases done with
    | true =>
      rw [if_pos rfl]
      refine .update fun p w hw => ?_
      obtain ⟨hdistinct, time, r, known, hid, hrunning, hmem⟩ := hw
      refine ⟨hdistinct, ⟨_, hmem, hid, known.definition_eq, rfl⟩, known.steps_le, fun s hs => ?_⟩
      simp [known.state_eq_none hrunning] at hs
    | false => exact .halt fun p w hw => hw.1.1.stopped hw.2

/-! ## Ends -/

/-- The state of a run that is in the database is read from its row. -/
theorem leads_stateOf (id : String) (hA : Calm A) (hs : ∀ w, A w → ∃ r ∈ w.db.runs, r.id = id) :
    Leads (Step env G scope) A (stateOf env id)
      (fun state w => A w ∧ ∃ r ∈ w.db.runs, r.id = id ∧ state = some r.state)
      fun w => A w ∧ ¬env.host.Sure .getState := by
  refine (leads_look _ _ hA).post fun state w hw => ?_
  obtain ⟨hw, rfl⟩ := hw
  obtain ⟨o, ho, hid⟩ := hs w hw
  have hfound : (w.db.run? id).isSome := List.find?_isSome.2 ⟨o, ho, by simpa using hid⟩
  obtain ⟨r, hr⟩ := Option.isSome_iff_exists.1 hfound
  exact ⟨hw, r, List.mem_of_find?_eq_some hr, by simpa using List.find?_some hr, by rw [hr]; rfl⟩

theorem rests_of_state_ne {id : String} {r : Run} {w : World σ} (hr : r ∈ w.db.runs)
    (hid : r.id = id) (hne : r.state ≠ .running) : Rests id r.state w :=
  ⟨hne, r, hr, hid, Or.inl rfl⟩

/-- A run that could not be failed: the database did not say so, or the run was not running. -/
def Unfailed (env : Environment σ) (run : Run) (w : World σ) : Prop :=
  ¬env.host.Reliable ∧ (env.host.Sure .fail → Idle run.id w)

/-- After a run was failed it is at rest in the state that is told. -/
theorem leads_failRun (run : Run) (node error : String) (o : Outcome) :
    Leads (Step env G scope) (fun w => Distinct w ∧ Stands run node w)
      (failRun env run.id error o)
      (fun o' w => (Distinct w ∧ Stands run node w) ∧ o'.steps = o.steps ∧
        ∃ s, o'.state = some s ∧ Rests run.id s w)
      (Unfailed env run) := by
  have calm : Calm (σ := σ) fun w => Distinct w ∧ Stands run node w :=
    calm_distinct.and (calm_stands run node)
  have known : ∀ w : World σ, Distinct w ∧ Stands run node w → ∀ r ∈ w.db.runs, r.id = run.id →
      r.definition = run.definition ∧ r.node = node := by
    rintro w ⟨hdistinct, q, hq, hqid, hqs⟩ r hr hid
    rwa [hdistinct.eq_of_id_eq hr hq (hid.trans hqid.symm)]
  unfold failRun
  refine .bind ((leads_progress (T := fun _ => True)
    (fun r => r.definition = run.definition ∧ r.node = node) .fail (.fail run.id error) rfl
    (fun _ _ => rfl) calm (fun w hw => hw.1) known (fun _ _ => trivial)
    fun _ _ _ _ => trivial).conseq (fun w hw => ⟨hw, trivial⟩) (fun _ _ hw => hw) fun w hw =>
      ⟨fun reliable => hw.2 (reliable.sure _), fun sure => absurd sure hw.2⟩) fun done => ?_
  cases done with
  | true =>
    refine .pure _ fun w hw => ?_
    obtain ⟨hdistinct, time, r, ⟨hdefinition, hnode⟩, hid, -, hmem⟩ := hw
    exact ⟨⟨hdistinct, _, hmem, hid, hdefinition, hnode⟩, rfl, .failed, rfl,
      rests_of_state_ne hmem hid (by simp [Database.ended])⟩
  | false =>
    have calm' : Calm (σ := σ) fun w => (Distinct w ∧ Stands run node w) ∧
        ∀ r ∈ w.db.runs, r.id = run.id → r.state ≠ .running := by
      refine calm.and fun w w' h hw r' hr' hid hrunning => ?_
      obtain ⟨r, hr, hc⟩ := h.exists_before hr'
      refine hw r hr (hc.id_eq.symm.trans hid) ?_
      rcases hc.state_eq with heq | heq
      · rwa [← heq]
      · simp [heq] at hrunning
    refine .bind ((leads_stateOf run.id calm' ?_).fails fun w hw => ?_) fun state => ?_
    · rintro w ⟨⟨-, r, hr, hid, -⟩, -⟩
      exact ⟨r, hr, hid⟩
    · obtain ⟨⟨⟨-, r, hr, hid, -⟩, hidle⟩, hsure⟩ := hw
      exact ⟨fun reliable => hsure (reliable.sure _), fun _ => ⟨r, hr, hid, hidle r hr hid⟩⟩
    · refine .pure _ fun w hw => ?_
      obtain ⟨⟨hw, hidle⟩, r, hr, hid, rfl⟩ := hw
      exact ⟨hw, rfl, r.state, rfl, rests_of_state_ne hr hid (hidle r hr hid)⟩

/-- A walk that fails its run is over. -/
theorem leads_failWalk (error : String) :
    Walk.Leads (Step env G scope) (Walks run k) (failWalk env run.id error)
      (fun _ p w => Walks run k p w ∧ p.outcome.state.isSome) (Ends run k) := by
  unfold failWalk
  refine .bind (B := fun q p w => Walks run k p w ∧ q = p) (.progress fun p w hw => ⟨hw, rfl⟩)
    fun q => ?_
  refine .bind (B := fun o p w => (Distinct w ∧ Stands run p.node w) ∧ o.steps ≤ k ∧
    ∃ s, o.state = some s ∧ Rests run.id s w) (.engine (E := fun p _ => p.outcome.steps ≤ k)
      (fun p => ?_) fun _ _ _ hw => hw) fun o => ?_
  · refine .assume (p := p.outcome.steps ≤ k ∧ q = p) (fun w hw => ⟨hw.1.steps_le, hw.2⟩) ?_
    rintro ⟨hsteps, rfl⟩
    refine (leads_failRun run q.node error q.outcome).conseq
      (fun w hw => ⟨hw.1.distinct, hw.1.stands⟩) (fun o w hw => ?_) fun _ _ => hsteps
    exact ⟨hw.1, hw.2.1.symm ▸ hsteps, hw.2.2⟩
  · refine .update fun p w hw => ?_
    obtain ⟨⟨hdistinct, hstands⟩, hsteps, s, hs, hrests⟩ := hw
    refine ⟨⟨hdistinct, hstands, hsteps, ?_⟩, by simp [hs]⟩
    rintro s' hs'
    obtain rfl : s = s' := Option.some.inj (hs.symm.trans hs')
    exact hrests

theorem leads_failWalk_of_walks {A : Progress → World σ → Prop} (error : String)
    (hA : ∀ p w, A p w → Walks run k p w) :
    Walk.Leads (Step env G scope) A (failWalk env run.id error) (fun _ => Walks run k)
      (Ends run k) :=
  (leads_failWalk error).conseq hA (fun _ _ _ hw => hw.1) fun _ _ _ hw => hw

end Engine

end CrmAutomation
