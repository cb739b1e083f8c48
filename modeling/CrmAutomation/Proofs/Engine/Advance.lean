import CrmAutomation.Proofs.Engine.Nodes

/-!
# Advancing a run

`Engine.leads_walkRun` is the specification of one advance: it makes no more steps than its graph
has nodes, and one, and in the end the run is at rest in the state that is told. It fails only when
the database does. What follows an advance is the handling of the events that it caused, which
advances other runs; all of it goes by steps that keep the database in order (`Engine.Goes`).
-/

namespace CrmAutomation

variable {σ α β : Type}

/-- The graph of a stored definition, if it can be read. -/
def Database.graph? (db : Database) (id : String) : Option Graph :=
  (db.definition? id).bind fun d => (Engine.parse d.graph).toOption

/-- The graph that an advance of a run of the definition uses: the one parsed before, or that of the
stored definition. -/
def World.graphFor? (w : World σ) (id : String) : Option Graph :=
  match Engine.cached? id w.graphs with
  | some g => some g
  | none => w.db.graph? id

theorem Sound.graphFor? {G : String → Graph → Prop} {w : World σ} (h : Sound G w) {id : String}
    {g : Graph} (hg : w.graphFor? id = some g) : G id g := by
  simp only [World.graphFor?, Engine.cached?, Database.graph?] at hg
  split at hg
  · rename_i o ho
    obtain ⟨p, hp, rfl⟩ := Option.map_eq_some_iff.1 ho
    obtain rfl := Option.some.inj hg
    have hid : p.1 = id := by simpa using List.find?_some hp
    exact hid ▸ h.cached p (List.mem_of_find?_eq_some hp)
  · obtain ⟨d, hd, hparse⟩ := Option.bind_eq_some_iff.1 hg
    have hid : d.id = id := by simpa using List.find?_some hd
    refine hid ▸ h.stored d (List.mem_of_find?_eq_some hd) g ?_
    cases hp : Engine.parse d.graph with
    | ok o => simpa [hp, Except.toOption] using hparse
    | error f => simp [hp, Except.toOption] at hparse

namespace Engine

variable {env : Environment σ} {G : String → Graph → Prop} {scope : Scope} {run : Run}

/-! ## Graphs -/

theorem leads_get {A : World σ → Prop} {B : World σ → World σ → Prop} {X : World σ → Prop}
    {S : World σ → World σ → Prop} (h : ∀ w, A w → B w w) :
    Leads S A (get : Engine σ (World σ)) B X :=
  fun w hw => ⟨.refl, h w hw⟩

/-- The graph of a definition is found, or the run cannot be executed. -/
theorem leads_graphOf {A : World σ → Prop} (hA : Calm A) (id : String) :
    Leads (Step env G scope) (fun w => A w ∧ ∀ g, w.graphFor? id = some g → G id g)
      (graphOf env id) (fun g w => A w ∧ G id g) A := by
  unfold graphOf
  refine .bind (B := fun v w => A w ∧ w.db.definitions = v.db.definitions ∧
    ∀ g, v.graphFor? id = some g → G id g) (leads_get fun w hw => ⟨hw.1, rfl, hw.2⟩) fun v => ?_
  refine .assume (fun w hw => hw.2.2) fun hfinds => ?_
  have calm : Calm fun w : World σ => A w ∧ w.db.definitions = v.db.definitions :=
    hA.and (.definitions fun d => d = v.db.definitions)
  split
  · rename_i g hcached
    refine .pure _ fun w hw => ⟨hw.1, hfinds g ?_⟩
    rw [World.graphFor?, hcached]
  · rename_i hcached
    refine .bind ((leads_look _ _ calm).conseq (fun w hw => ⟨hw.1, hw.2.1⟩) (fun _ _ hw => hw)
      fun w hw => hw.1.1) fun found => ?_
    split
    · exact .throw _ fun w hw => hw.1.1
    · rename_i d
      refine .assume (p := v.db.definition? id = some d) (fun w hw => ?_) fun hd => ?_
      · rw [Database.definition?, ← hw.1.2, hw.2, Database.definition?]
      refine .bind (B := fun g w => A w ∧ G id g) (.ofExcept _ (fun g w hg hw => ⟨hw.1.1, ?_⟩)
        fun w hw => hw.1.1) fun g => ?_
      · refine hfinds g ?_
        rw [World.graphFor?, hcached, Database.graph?, hd]
        simp [hg, Except.toOption]
      · refine .assume (fun w hw => hw.2) fun hg => ?_
        exact .bind (leads_remember (hA.and (.const _)) hg) fun _ => .pure _ fun w hw => hw

/-! ## One advance -/

/-- A number of steps that one advance may make. -/
def Bounded (G : String → Graph → Prop) (run : Run) (steps : Nat) : Prop :=
  steps = 0 ∨ ∃ g, G run.definition g ∧ steps ≤ g.size + 1

/-- What is known wherever a walk ends. -/
def Halts (G : String → Graph → Prop) (run : Run) (h : Halt) (p : Progress) (w : World σ) : Prop :=
  Bounded G run p.outcome.steps ∧ ∃ k, Ends run k h p w

/-- The walk of a run, with the graph that is found for it. -/
def walking (env : Environment σ) (run : Run) : Walk σ Unit := do
  let graph ← Walk.engine (graphOf env run.definition)
  walk env graph run (graph.size + 1)

theorem leads_walking :
    Walk.Leads (Step env G scope)
      (fun p w => Resumes scope run 0 p w ∧
        ∀ g, w.graphFor? run.definition = some g → G run.definition g)
      (walking env run)
      (fun _ p w => Bounded G run p.outcome.steps ∧ (∃ k, Walks run k p w) ∧ p.outcome.state.isSome)
      (Halts G run) := by
  refine .bind (B := fun g p w => Resumes scope run 0 p w ∧ G run.definition g)
    (.engine (fun p => leads_graphOf (calm_resumes scope run 0 p) run.definition) fun f p w hw =>
      ⟨Or.inl (Nat.le_zero.1 hw.1.steps_le), 0, hw.1.steps_le⟩) fun g => ?_
  refine .assume (fun p w hw => hw.2) fun hg => ?_
  refine (leads_walk hg (g.size + 1) 0).conseq (fun p w hw => hw.1) (fun _ p w hw => ?_)
    fun h p w hw => ?_
  · rw [Nat.zero_add] at hw
    exact ⟨Or.inr ⟨g, hg, hw.1.steps_le⟩, ⟨_, hw.1⟩, hw.2⟩
  · rw [Nat.zero_add] at hw
    refine ⟨Or.inr ⟨g, hg, ?_⟩, _, hw⟩
    cases h with
    | stopped => exact hw.1
    | failed f => exact hw

/-- What an advance makes of the way in which its walk ended. -/
def conclude (env : Environment σ) (run : Run) (result : Except Halt Unit) (p : Progress) :
    Engine σ Outcome := do
  let o ← match result with
    | .error (.failed f) => failRun env run.id (crashText p.node f) p.outcome
    | _ => pure p.outcome
  match o.state with
  | some _ => return o
  | none => return { o with state := ← stateOf env run.id }

theorem run_walkRun (resuming : Bool) (w : World σ) :
    (walkRun env resuming run).run w =
      (conclude env run ((walking env run).run (⟨run.node, resuming, { run := run.id }⟩, w)).1
        ((walking env run).run (⟨run.node, resuming, { run := run.id }⟩, w)).2.1).run
        ((walking env run).run (⟨run.node, resuming, { run := run.id }⟩, w)).2.2 :=
  rfl

/-- The outcome of an advance tells the state in which its run rests. -/
def Tells (G : String → Graph → Prop) (run : Run) (o : Outcome) (w : World σ) : Prop :=
  Bounded G run o.steps ∧ ∃ s, o.state = some s ∧ Rests run.id s w

/-- What has been told need not be read. -/
theorem leads_told {A X : World σ → Prop} {o : Outcome}
    (h : ∀ w, A w → Tells G run o w) :
    Leads (Step env G scope) A
      (match o.state with
        | some _ => Pure.pure o
        | none => stateOf env run.id >>= fun state => Pure.pure { o with state := state })
      (Tells G run) X := by
  intro w hw
  obtain ⟨hbounded, s, hs, hrests⟩ := h w hw
  rw [hs]
  exact ⟨.refl, hbounded, s, hs, hrests⟩

/-- However a walk has ended, the outcome of the advance tells where its run rests. -/
theorem leads_conclude (result : Except Halt Unit) (p : Progress) :
    Leads (Step env G scope)
      (fun w => (Distinct w ∧ ∃ r ∈ w.db.runs, r.id = run.id) ∧
        match result with
        | .ok _ => Bounded G run p.outcome.steps ∧ (∃ k, Walks run k p w) ∧ p.outcome.state.isSome
        | .error h => Halts G run h p w)
      (conclude env run result p) (Tells G run) (Unfailed env run) := by
  unfold conclude
  match result with
  | .ok _ =>
    refine .bind (B := Tells G run) (.pure _ fun w hw => ?_) fun o => leads_told fun w hw => hw
    obtain ⟨-, hbounded, ⟨k, hwalks⟩, hsome⟩ := hw
    obtain ⟨s, hs⟩ := Option.isSome_iff_exists.1 hsome
    exact ⟨hbounded, s, hs, hwalks.told s hs⟩
  | .error .stopped =>
    refine .bind (B := fun o w => o = p.outcome ∧ Distinct w ∧ Halts G run .stopped p w)
      (.pure _ fun w hw => ⟨rfl, hw.1.1, hw.2⟩) fun o => ?_
    refine .assume (fun w hw => hw.1) ?_
    rintro rfl
    dsimp only
    split
    · rename_i s hs
      refine .pure _ fun w hw => ?_
      obtain ⟨-, -, hbounded, k, hends⟩ := hw
      exact ⟨hbounded, s, hs, hends.2.2 s hs⟩
    · refine .assume (fun w hw => hw.2.2.1) fun hbounded => ?_
      have calm : Calm (σ := σ) fun w => Distinct w ∧ Idle run.id w :=
        calm_distinct.and (calm_idle run.id)
      refine .bind ((leads_stateOf run.id calm ?_).conseq ?_ (fun _ _ hw => hw) fun w hw =>
        ⟨fun reliable => hw.2 (reliable.sure _), fun _ => hw.1.2⟩) fun state => ?_
      · rintro w ⟨-, r, hr, hid, -⟩
        exact ⟨r, hr, hid⟩
      · rintro w ⟨-, hdistinct, -, k, hends⟩
        exact ⟨hdistinct, hends.2.1⟩
      · refine .pure _ fun w hw => ?_
        obtain ⟨⟨hdistinct, q, hq, hqid, hidle⟩, r, hr, hid, rfl⟩ := hw
        obtain rfl := hdistinct.eq_of_id_eq hr hq (hid.trans hqid.symm)
        exact ⟨hbounded, r.state, rfl, rests_of_state_ne hr hid hidle⟩
  | .error (.failed f) =>
    refine .bind (B := Tells G run) ?_ fun o => leads_told fun w hw => hw
    rintro w ⟨⟨hdistinct, r, hr, hid⟩, hbounded, -⟩
    have hfail : Leads (Step env G scope) _
        (failRun env r.id (crashText p.node f) p.outcome) _ _ :=
      leads_failRun r r.node (crashText p.node f) p.outcome
    have hunfailed : ∀ w : World σ, Unfailed env r w → Unfailed env run w := fun w hw => by
      rwa [Unfailed, ← hid]
    rw [hid] at hfail
    refine hfail.conseq (fun _ hw => hw) (fun o w hw => ?_) hunfailed w
      ⟨hdistinct, r, hr, rfl, rfl, rfl⟩
    exact ⟨hw.2.1.symm ▸ hbounded, hw.2.2⟩

/-- At its end an advance fails its run if the walk has failed, and reads the state of the run unless
it was told. -/
theorem leads_conclude_of {S : World σ → World σ → Prop} {A X : World σ → Prop}
    {B : Outcome → World σ → Prop} (result : Except Halt Unit) (p : Progress)
    (hfail : ∀ error, Leads S A (failRun env run.id error p.outcome) B X)
    (hend : ∀ w, A w → B p.outcome w)
    (hread : ∀ o, Leads S (B o) (stateOf env run.id)
      (fun state => B { o with state := state }) X) :
    Leads S A (conclude env run result p) B X := by
  have told : ∀ o : Outcome, Leads S (B o)
      (match o.state with
        | some _ => Pure.pure o
        | none => stateOf env run.id >>= fun state => Pure.pure { o with state := state }) B X := by
    intro o
    split
    · exact .pure o fun _ hw => hw
    · exact .bind (hread o) fun _ => .pure _ fun _ hw => hw
  unfold conclude
  match result with
  | .error (.failed f) => exact .bind (hfail _) told
  | .error .stopped | .ok _ => exact .bind (.pure _ hend) told

/-- The table keeps its rows, and their ids apart, along every path. -/
theorem stored_of_path {w w' : World σ} {id : String} (h : Path (Step env G scope) w w')
    (hdistinct : Distinct w) (hr : ∃ r ∈ w.db.runs, r.id = id) :
    Distinct w' ∧ ∃ r ∈ w'.db.runs, r.id = id :=
  ⟨h.keep (fun _ _ hstep => hstep.effect.nodup_ids) hdistinct,
    h.keep (I := fun w => ∃ r ∈ w.db.runs, r.id = id) (fun _ _ hstep => hstep.effect.exists_id) hr⟩

/-- An advance of a run that is in the database comes to an end, and tells where the run rests. -/
theorem leads_walkRun (run : Run) (resuming : Bool)
    (hover : resuming → scope.elapsed run.id run.node) :
    Leads (Step env G scope)
      (fun w => Distinct w ∧ Stands run run.node w ∧
        ∀ g, w.graphFor? run.definition = some g → G run.definition g)
      (walkRun env resuming run) (Tells G run) (Unfailed env run) := by
  rintro w ⟨hdistinct, hstands, hfinds⟩
  have hstart : Resumes scope run 0 ⟨run.node, resuming, { run := run.id }⟩ w :=
    ⟨⟨hdistinct, hstands, Nat.le_refl 0, by simp⟩, hover⟩
  have hwalking : Walk.Leads (Step env G scope) _ (walking env run) _ _ := leads_walking
  obtain ⟨hpath, hend⟩ := hwalking _ w ⟨hstart, hfinds⟩
  rw [run_walkRun]
  rcases hrun : (walking env run).run (⟨run.node, resuming, { run := run.id }⟩, w)
    with ⟨result, p, after⟩
  rw [hrun] at hpath hend
  obtain ⟨r, hr, hid, -⟩ := hstands
  have hconclude : Leads (Step env G scope) _ (conclude env run result p) _ _ :=
    leads_conclude result p
  have hstored := stored_of_path hpath hdistinct ⟨r, hr, hid⟩
  obtain ⟨hpath', hend'⟩ := hconclude after ⟨hstored, by cases result <;> exact hend⟩
  exact ⟨hpath.trans hpath', hend'⟩

end Engine

end CrmAutomation
