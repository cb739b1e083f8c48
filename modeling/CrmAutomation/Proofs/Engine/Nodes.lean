import CrmAutomation.Proofs.Engine.Walking

/-!
# Executing nodes

Each kind of node is executed in its own way, and all of them keep the walk where the database has
its run: `Engine.leads_executeCondition`, `Engine.leads_executeDelay` and
`Engine.leads_executeAction`, put together in `Engine.leads_executeNode`. An outcome is recorded
while the run is still on the node; for a condition it is the record that says where the run goes
next. `Engine.leads_walk` is the whole walk, by induction on the nodes that it may still execute.
-/

namespace CrmAutomation

variable {σ : Type}

/-- The walk has come to the node. -/
def Visits (run : Run) (k : Nat) (node : Node) (p : Progress) (w : World σ) : Prop :=
  Walks run k p w ∧ p.node = node.id

theorem calm_visits (run : Run) (k : Nat) (node : Node) (p : Progress) :
    Calm (Visits (σ := σ) run k node p) :=
  (calm_walks run k p).and (.const _)

theorem calm_visits_number (run : Run) (k : Nat) (node : Node) (number : Int) (p : Progress) :
    Calm (σ := σ) fun w =>
      Visits run k node p w ∧ w.db.nextAttempt run.id node.id = number :=
  (calm_visits run k node p).and (.nextAttempt _ _ _)

/-- Only an attempt within the limit is followed by another one. -/
theorem RetryStrategy.lt_of_shouldRetry {s : RetryStrategy} {number : Int}
    {failure : Option Failure} {retryable : Option Bool}
    (h : s.shouldRetry number failure retryable = true) : number < s.maxAttempts := by
  unfold shouldRetry at h
  split at h
  · cases h
  · omega

namespace Database

/-- The next attempt after one is recorded. -/
theorem nextAttempt_append {db : Database} {r : NodeRecord}
    (h : r.attempt = db.nextAttempt r.run r.node) :
    { db with records := db.records ++ [r] }.nextAttempt r.run r.node = r.attempt + 1 := by
  have hrecords : { db with records := db.records ++ [r] }.recordsOf r.run r.node
      = db.recordsOf r.run r.node ++ [r] := by
    simp [recordsOf]
  rw [nextAttempt] at h
  rw [nextAttempt, hrecords, List.map_append]
  generalize (db.recordsOf r.run r.node).map (·.attempt) = attempts at h ⊢
  cases attempts with
  | nil => rfl
  | cons a rest =>
    replace h : r.attempt = rest.foldl max a + 1 := h
    simp only [List.cons_append, List.map_cons, List.map_nil, List.foldl_append, List.foldl_cons,
      List.foldl_nil]
    omega

/-- A success that is recorded is the latest one. -/
theorem latestSuccess?_append {db : Database} {r : NodeRecord} (h : r.outcome = .success) :
    { db with records := db.records ++ [r] }.latestSuccess? r.run r.node = some r := by
  simp [latestSuccess?, recordsOf, h]

/-- A record that tells no failure settles its node. -/
theorem settled_append {db : Database} {r : NodeRecord} (h : r.outcome ≠ .failed) :
    { db with records := db.records ++ [r] }.Settled r.run r.node := by
  refine ⟨r, by simp [recordsOf], ?_⟩
  cases houtcome : r.outcome with
  | success => exact Or.inl rfl
  | skipped => exact Or.inr rfl
  | failed => exact absurd houtcome h

theorem settled_of_hasSuccess {db : Database} {run node : String} (h : db.hasSuccess run node) :
    db.Settled run node := by
  obtain ⟨o, ho, houtcome⟩ := List.any_eq_true.1 h
  exact ⟨o, ho, Or.inl (beq_iff_eq.1 houtcome)⟩

end Database

/-- What went well is not recorded as a failure. -/
theorem ActionResult.outcome_ne_failed {r : ActionResult} (h : r.ok) : r.outcome ≠ .failed := by
  simp only [outcome, h]
  split <;> simp

namespace Engine

variable {env : Environment σ} {G : String → Graph → Prop} {scope : Scope} {run : Run} {k : Nat}
  {g : Graph} {node : Node}

/-! ## Records of a walk -/

/-- A walk records an attempt at the node that it has come to. -/
theorem leads_record_visits {I : World σ → Prop} (hg : G run.definition g)
    (hn : g.node? node.id = some node) (number : Int) (outcome : NodeOutcome)
    (error : Option String) (output : Option Value) (hI : Calm I)
    (hrecorded : ∀ w r, I w → I (w.recorded r)) (hrests : node.type = .delay → ∀ w, I w →
      Rests run.id .suspended w) :
    Walk.Leads (Step env G scope)
      (fun p w => Visits run k node p w ∧ I w ∧ w.db.nextAttempt run.id node.id = number ∧
        (node.type.isSending → outcome = .success → w.db.hasSuccess run.id node.id = false))
      (Walk.engine (record env run.id node.id node.type.text number outcome error output))
      (fun _ p w => (Visits run k node p w ∧ I w ∧
        w.db.nextAttempt run.id node.id = number + 1) ∧
        (outcome ≠ .failed → w.db.Settled run.id node.id) ∧
        (outcome = .success → ∃ r, w.db.latestSuccess? run.id node.id = some r ∧ r.output = output))
      (Ends run k) := by
  refine .engine (fun p => leads_record
    { run := run.id, node := node.id, nodeType := node.type.text, attempt := number,
      outcome := outcome, error := error, output := output, executedAt := default } ?_ ?_ ?_)
    fun f p w hw => hw.1.1.failed f
  · refine (calm_visits run k node p).and (hI.and ((Calm.nextAttempt _ _ _).and ?_))
    exact fun w w' h hw sending success => Calm.hasSuccess _ _ _ w w' h (hw sending success)
  · rintro w ⟨⟨hwalks, hnode⟩, hi, hnext, hfirst⟩
    obtain ⟨r, hr, hid, hdefinition, hstands⟩ := hwalks.stands
    rw [hnode] at hstands
    refine ⟨r, hr, hid.symm, hstands.symm, ?_, g, node, hdefinition ▸ hg, hstands ▸ hn, rfl, ?_,
      fun hdelay hrunning => ?_⟩
    · rw [hid, hstands, hnext]
    · rw [hid, hstands]
      exact hfirst
    · obtain ⟨-, o, ho, hoid, hstate⟩ := hrests hdelay w hi
      obtain rfl := hwalks.distinct.eq_of_id_eq ho hr (hoid.trans hid.symm)
      simp [hrunning] at hstate
  · rintro w time ⟨⟨hwalks, hnode⟩, hi, hnext, -⟩
    obtain ⟨hdistinct, hstands, hsteps, htold⟩ := hwalks
    refine ⟨⟨⟨⟨hdistinct, hstands, hsteps, htold⟩, hnode⟩, hrecorded w _ hi, ?_⟩,
      fun done => ?_, fun success => ?_⟩
    · exact Database.nextAttempt_append (r := ⟨run.id, node.id, node.type.text, number, outcome,
        error, output, time⟩) hnext.symm
    · exact Database.settled_append (r := ⟨run.id, node.id, node.type.text, number, outcome,
        error, output, time⟩) done
    · exact ⟨_, Database.latestSuccess?_append (r := ⟨run.id, node.id, node.type.text, number,
        outcome, error, output, time⟩) success, rfl⟩

/-- A node that sends nothing has no successes that could be repeated. -/
theorem leads_record_of_not_sending {I : World σ → Prop} (hg : G run.definition g)
    (hn : g.node? node.id = some node) (hsending : ¬node.type.isSending) (number : Int)
    (outcome : NodeOutcome) (error : Option String) (output : Option Value) (hI : Calm I)
    (hrecorded : ∀ w r, I w → I (w.recorded r)) (hrests : node.type = .delay → ∀ w, I w →
      Rests run.id .suspended w) :
    Walk.Leads (Step env G scope)
      (fun p w => Visits run k node p w ∧ I w ∧ w.db.nextAttempt run.id node.id = number)
      (Walk.engine (record env run.id node.id node.type.text number outcome error output))
      (fun _ p w => (Visits run k node p w ∧ I w ∧
        w.db.nextAttempt run.id node.id = number + 1) ∧
        (outcome ≠ .failed → w.db.Settled run.id node.id) ∧
        (outcome = .success → ∃ r, w.db.latestSuccess? run.id node.id = some r ∧ r.output = output))
      (Ends run k) :=
  (leads_record_visits hg hn number outcome error output hI hrecorded hrests).pre
    fun _ _ hw => ⟨hw.1, hw.2.1, hw.2.2, fun h => absurd h hsending⟩

/-- When a node may be left: it is a trigger, or settled, or a delay that is over. -/
def Passable (scope : Scope) (run : Run) (node : Node) (w : World σ) : Prop :=
  node.type ≠ .trigger →
    w.db.Settled run.id node.id ∨ node.type = .delay ∧ scope.elapsed run.id node.id

theorem mayLeave_of_visits {p : Progress} {w : World σ} {r : Run}
    (hn : g.node? node.id = some node) (h : Visits run k node p w) (hr : r ∈ w.db.runs)
    (hid : r.id = run.id) (hpass : Passable scope run node w) : g.MayLeave scope w.db r := by
  intro n hfound
  rw [h.1.node_eq hr hid, h.2] at hfound ⊢
  obtain rfl := Option.some.inj (hn.symm.trans hfound)
  exact hid ▸ hpass

/-- A node that is no condition is left on the default handle. -/
theorem onward_default {p : Progress} {w : World σ} (hg : G run.definition g)
    (hn : g.node? node.id = some node) (hc : ∀ c, node.config ≠ .condition c)
    (h : Visits run k node p w) (hpass : Passable scope run node w) :
    Onward G scope run (g.nextNodeId? node.id .default) w := by
  refine ⟨g, hg, fun r hr hid => ⟨⟨.default, ?_, ?_⟩, mayLeave_of_visits hn h hr hid hpass⟩⟩
  · rw [Graph.handle?, h.1.node_eq hr hid, h.2, hn]
    rcases hconfig : node.config with _ | _ | _ | _ | _ | _ | _ | c
    case condition => exact absurd hconfig (hc c)
    all_goals simp [hconfig]
  · rw [h.1.node_eq hr hid, h.2]

/-- A condition is left on the branch that its latest success tells. -/
theorem onward_branch {p : Progress} {w : World σ} {c : Comparison} {r : NodeRecord}
    {handle : Handle} (hg : G run.definition g) (hn : g.node? node.id = some node)
    (hc : node.config = .condition c) (h : Visits run k node p w)
    (hr : w.db.latestSuccess? run.id node.id = some r) (hbranch : r.branch? = some handle) :
    Onward G scope run (g.nextNodeId? node.id handle) w := by
  have hpass : Passable scope run node w := fun _ => by
    obtain ⟨hmem, houtcome⟩ := List.mem_filter.1 (List.mem_of_getLast? hr)
    exact Or.inl ⟨r, hmem, Or.inl (beq_iff_eq.1 houtcome)⟩
  refine ⟨g, hg, fun o ho hid => ⟨⟨handle, ?_, ?_⟩, mayLeave_of_visits hn h ho hid hpass⟩⟩
  · rw [Graph.handle?, h.1.node_eq ho hid, h.2, hn, hid, hr]
    simpa [hc] using hbranch
  · rw [h.1.node_eq ho hid, h.2]

theorem leads_nextAttempt {A : Progress → World σ → Prop} (hA : ∀ p, Calm (A p))
    (hE : ∀ f p w, A p w → Ends run k (.failed f) p w) :
    Walk.Leads (Step env G scope) A (Walk.engine (nextAttempt env run.id node.id))
      (fun number p w => A p w ∧ w.db.nextAttempt run.id node.id = number) (Ends run k) :=
  .engine (fun p => (leads_look _ _ (hA p)).conseq (fun _ hw => hw)
    (fun _ _ hw => ⟨hw.1, hw.2.symm⟩) fun _ hw => hw.1) hE

/-! ## Conditions -/

/-- One more attempt of a retried computation. -/
theorem run_executeFrom_succ (env : Environment σ) (s : RetryStrategy) (x : Engine σ α) (left : Nat)
    (number : Int) (w : World σ) :
    s.executeFrom (draw env) (fun _ _ _ => pure ()) x.run (left + 1) number w =
      match x.run w with
      | (.ok a, w') => (.ok a, w')
      | (.error f, w') =>
        if s.shouldRetry number (some f) none then
          match s.delay (env.host.draw w'.host).1 number with
          | .error e => (.error e, { w' with host := (env.host.draw w'.host).2 })
          | .ok _ => s.executeFrom (draw env) (fun _ _ _ => pure ()) x.run left (number + 1)
              { w' with host := (env.host.draw w'.host).2 }
        else (.error f, w') := by
  simp only [RetryStrategy.executeFrom, bind, StateT.bind]
  rcases x.run w with ⟨f | a, w'⟩
  · dsimp only
    split
    · change (match s.delay (env.host.draw w'.host).1 number with
          | .error e => pure (.error e)
          | .ok d => StateT.bind (pure ()) fun _ =>
            s.executeFrom (draw env) (fun _ _ _ => pure ()) x.run left (number + 1) : StateM _ _)
            { w' with host := (env.host.draw w'.host).2 } = _
      cases s.delay (env.host.draw w'.host).1 number <;> rfl
    · rfl
  · rfl

theorem keeps_executeFrom {x : Engine σ α} (s : RetryStrategy) (hx : Keeps env G scope x)
    (left : Nat) (number : Int) :
    Keeps env G scope
      (ExceptT.mk (s.executeFrom (draw env) (fun _ _ _ => pure ()) x.run left number)) := by
  induction left generalizing number with
  | zero => exact hx
  | succ left ih =>
    refine keeps_iff.2 fun A hA w hw => ?_
    obtain ⟨hpath, hend⟩ := keeps_iff.1 hx A hA w hw
    change Path _ w (s.executeFrom _ _ x.run (left + 1) number w).2 ∧
      A (s.executeFrom _ _ x.run (left + 1) number w).2
    rw [run_executeFrom_succ]
    rcases hrun : x.run w with ⟨f | a, w'⟩ <;> rw [hrun] at hpath hend
    · have hdraw : Path (Step env G scope) w { w' with host := (env.host.draw w'.host).2 } :=
        .tail hpath .draw
      have hw' : A { w' with host := (env.host.draw w'.host).2 } := hA w' _ (.refl _) hend
      dsimp only
      split
      · split
        · exact ⟨hdraw, hw'⟩
        · obtain ⟨hpath', hend'⟩ := keeps_iff.1 (ih (number + 1)) A hA _ hw'
          exact ⟨hdraw.trans hpath', hend'⟩
      · exact ⟨hpath, hend⟩
    · exact ⟨hpath, hend⟩

theorem keeps_readContact (run : Run) : Keeps env G scope (readContact env run) :=
  keeps_executeFrom _ (keeps_demand rfl) _ _

theorem keeps_decideCondition (run : Run) (c : Comparison) :
    Keeps env G scope (decideCondition env run c) := by
  refine .bind (keeps_readContact run) fun contact => ?_
  split
  · exact .throw _
  · split
    · exact .pure _
    · exact .throw _

/-- The branch that is recorded for a condition is the one that is taken. -/
theorem leads_executeCondition {c : Comparison} (hg : G run.definition g)
    (hn : g.node? node.id = some node) (hc : node.config = .condition c) :
    Walk.Leads (Step env G scope) (Visits run k node) (executeCondition env g run node c)
      (fun _ => Walks run k) (Ends run k) := by
  have hsending : ¬node.type.isSending := by
    simp [Node.type, hc, NodeConfig.type, NodeType.isSending]
  have hdelay : node.type ≠ .delay := by simp [Node.type, hc, NodeConfig.type]
  unfold executeCondition
  refine .bind (leads_nextAttempt (calm_visits run k node) fun f _ _ hw => hw.1.failed f)
    fun number => ?_
  have calm := calm_visits_number (σ := σ) run k node number
  refine .bind ((keeps_decideCondition run c).attempt.walk calm fun f _ _ hw => hw.1.1.failed f)
    fun decided => ?_
  cases decided with
  | error f =>
    refine .bind ((leads_record_of_not_sending hg hn hsending number .failed _ none (.const True)
      (fun _ _ h => h) fun h => absurd h hdelay).pre fun p w hw => ⟨hw.1, trivial, hw.2⟩)
      fun _ => ?_
    exact leads_failWalk_of_walks _ fun _ _ hw => hw.1.1.1
  | ok result =>
    refine .bind ((leads_record_of_not_sending hg hn hsending number .success none _ (.const True)
      (fun _ _ h => h) fun h => absurd h hdelay).pre fun p w hw => ⟨hw.1, trivial, hw.2⟩)
      fun _ => ?_
    refine (leads_goOn _).pre fun p w hw => ⟨hw.1.1.1, ?_⟩
    obtain ⟨⟨hvisits, -⟩, -, hlatest⟩ := hw
    obtain ⟨r, hr, houtput⟩ := hlatest rfl
    refine onward_branch hg hn hc hvisits hr ?_
    rw [NodeRecord.branch?, houtput]
    cases result <;> rfl

/-! ## Delays -/

/-- The time that is read is what the clock shows then. -/
theorem leads_clock {A X : World σ → Prop} (hA : Calm A) :
    Leads (Step env G scope) A now (fun time w => A w ∧ w.clock = time) X :=
  fun w hw => ⟨.single .tick, hA w _ (.refl _) hw, rfl⟩

theorem onDelay_of_visits {p : Progress} {w : World σ} {r : Run} {minutes : Int}
    (hg : G run.definition g) (hn : g.node? node.id = some node) (hd : node.config = .delay minutes)
    (h : Visits run k node p w) (hr : r ∈ w.db.runs) (hid : r.id = run.id) :
    r.OnDelay G minutes := by
  refine ⟨g, node, ?_, ?_, hd⟩
  · rwa [h.1.definition_eq hr hid]
  · rwa [h.1.node_eq hr hid, h.2]

/-- A run rests on the delay that suspended it. -/
theorem leads_executeDelay {minutes : Int} (hg : G run.definition g)
    (hn : g.node? node.id = some node) (hd : node.config = .delay minutes) :
    Walk.Leads (Step env G scope) (Visits run k node) (executeDelay env run node minutes)
      (fun _ => Walks run k) (Ends run k) := by
  have hsending : ¬node.type.isSending := by
    simp [Node.type, hd, NodeConfig.type, NodeType.isSending]
  have calm := calm_visits (σ := σ) run k node
  have suspended : ∀ p, Calm (σ := σ) fun w =>
      Visits run k node p w ∧ Rests run.id .suspended w :=
    fun p => (calm p).and (calm_rests run.id .suspended)
  unfold executeDelay
  refine .bind (.engine (E := fun _ _ => False) (fun p => leads_clock (calm p))
    fun _ _ _ hw => hw.elim) fun time => ?_
  refine .bind (.engine (fun p => .ofExcept (B := fun resumeAt w => Visits run k node p w ∧
    w.clock.addMinutes minutes = .ok resumeAt) _ (fun resumeAt w hok hw => ⟨hw.1, hw.2 ▸ hok⟩)
    fun w hw => hw.1) fun f _ _ hw => hw.1.failed f) fun resumeAt => ?_
  refine .bind (.engine (fun p => leads_progress (fun r => KnownRow run k p r ∧ p.node = node.id)
    .suspend (.suspend run.id node.id resumeAt) rfl (fun _ _ => rfl) (calm p)
    (fun w hw => hw.1.distinct) (fun w hw r hr hid => ⟨knownRow_of_walks hw.1 r hr hid, hw.2⟩)
    (fun w hw r hr hid => (hw.1.node_eq hr hid).trans hw.2) fun time htime w hw r hr hid =>
      ⟨minutes, onDelay_of_visits hg hn hd hw hr hid, htime⟩) fun f p w hw => hw.1.1.failed f)
    fun done => ?_
  cases done with
  | true =>
    rw [if_pos rfl]
    refine .bind (B := fun number p w => (Visits run k node p w ∧ Rests run.id .suspended w) ∧
      w.db.nextAttempt run.id node.id = number) ((leads_nextAttempt suspended
        fun f p w hw => hw.1.1.failed f).pre fun p w hw => ?_) fun number => ?_
    · obtain ⟨hdistinct, t, r, ⟨known, hnode⟩, hid, hrunning, hmem⟩ := hw
      refine ⟨⟨⟨hdistinct, ⟨_, hmem, hid, known.definition_eq, hnode.symm⟩, known.steps_le,
        fun s hs => ?_⟩, hnode⟩, by simp, _, hmem, hid, Or.inl rfl⟩
      simp [known.state_eq_none hrunning] at hs
    · refine .bind ((leads_record_of_not_sending hg hn hsending number .success none _
        (calm_rests run.id .suspended) (fun _ _ h => h) fun _ _ h => h).pre
        fun p w hw => ⟨hw.1.1, hw.1.2, hw.2⟩) fun _ => ?_
      exact .settle fun p w hw => hw.1.1.1.settled hw.1.2.1
  | false => exact .halt fun p w hw => hw.1.1.stopped hw.2

/-! ## Actions -/

/-- An attempt at an action leads on, ends the run, or leads to the next attempt. -/
theorem leads_tryOnce {number : Int} {again : Walk σ Unit} (hg : G run.definition g)
    (hn : g.node? node.id = some node) (hc : ∀ c, node.config ≠ .condition c)
    (hd : node.type ≠ .delay)
    (hagain : number < env.rules.strategy.maxAttempts → Walk.Leads (Step env G scope)
      (fun p w => Visits run k node p w ∧ w.db.nextAttempt run.id node.id = number + 1) again
      (fun _ => Walks run k) (Ends run k)) :
    Walk.Leads (Step env G scope)
      (fun p w => Visits run k node p w ∧ w.db.nextAttempt run.id node.id = number)
      (tryOnce env g run node number again) (fun _ => Walks run k) (Ends run k) := by
  have calm := calm_visits_number (σ := σ) run k node
  have stands : ∀ (n : Int) (p : Progress) (w : World σ),
      Visits run k node p w ∧ w.db.nextAttempt run.id node.id = n → Stands run node.id w :=
    fun n p w hw => hw.1.2 ▸ hw.1.1.stands
  unfold tryOnce
  refine .bind (.engine (fun p => leads_attemptAction number ⟨g, hg, hn⟩ (calm number p)
    (stands number p)) fun f _ _ hw => hw.1.1.failed f) fun r => ?_
  refine .bind (B := fun _ p w => (Visits run k node p w ∧
    w.db.nextAttempt run.id node.id = number + 1) ∧
    (r.outcome ≠ .failed → w.db.Settled run.id node.id))
    ((leads_record_visits hg hn number r.outcome r.error _ (.const True) (fun _ _ h => h)
      fun h => absurd h hd).conseq (fun p w hw => ⟨hw.1.1, trivial, hw.1.2, hw.2⟩)
      (fun _ _ _ hw => ⟨⟨hw.1.1, hw.1.2.2⟩, hw.2.1⟩) fun _ _ _ hw => hw) fun _ => ?_
  split
  · rename_i hok
    refine .bind (B := fun _ p w => Visits run k node p w ∧ w.db.Settled run.id node.id)
      (.update fun p w hw => ?_) fun _ => ?_
    · obtain ⟨⟨⟨⟨hdistinct, hstands, hsteps, htold⟩, hnode⟩, -⟩, hsettled⟩ := hw
      exact ⟨⟨⟨hdistinct, hstands, hsteps, htold⟩, hnode⟩,
        hsettled (ActionResult.outcome_ne_failed hok)⟩
    · exact (leads_goOn _).pre fun p w hw =>
        ⟨hw.1.1, onward_default hg hn hc hw.1 fun _ => Or.inl hw.2⟩
  · refine .pre (A := fun p w => Visits run k node p w ∧
      w.db.nextAttempt run.id node.id = number + 1) ?_ fun _ _ hw => hw.1
    split
    · exact leads_failWalk_of_walks _ fun _ _ hw => hw.1.1
    · rename_i hretry
      have hmore : number < env.rules.strategy.maxAttempts :=
        RetryStrategy.lt_of_shouldRetry (by simpa using hretry)
      refine .bind (keeps_draw.walk (calm _) fun f _ _ hw => hw.1.1.failed f) fun u => ?_
      refine .bind ((Keeps.ofExcept _).walk (calm _) fun f _ _ hw => hw.1.1.failed f)
        fun delay => ?_
      refine .bind ((keeps_wait delay).walk (calm _) fun f _ _ hw => hw.1.1.failed f) fun _ => ?_
      refine .bind (.engine (fun p => leads_stateOf run.id (calm _ p) ?_)
        fun f _ _ hw => hw.1.1.1.failed f) fun state => ?_
      · rintro w ⟨⟨⟨-, ⟨o, ho, hid, -⟩, -, -⟩, -⟩, -⟩
        exact ⟨o, ho, hid⟩
      · split
        · exact (hagain hmore).pre fun _ _ hw => hw.1
        · rename_i hstate
          refine .bind (B := fun _ => Ends run k .stopped) (.settle fun p w hw => ?_) fun _ =>
            .halt fun _ _ hw => hw
          obtain ⟨⟨⟨hwalks, -⟩, -⟩, o, ho, hid, rfl⟩ := hw
          have hidle : o.state ≠ .running := fun h => hstate (congrArg some h)
          exact ⟨hwalks.steps_le, ⟨o, ho, hid, hidle⟩,
            (hwalks.settled (rests_of_state_ne ho hid hidle)).told⟩

/-- There is an attempt left whenever another one is asked for. -/
theorem leads_tryAction (hg : G run.definition g) (hn : g.node? node.id = some node)
    (hc : ∀ c, node.config ≠ .condition c) (hd : node.type ≠ .delay) (left : Nat) (number : Int)
    (hleft : env.rules.strategy.maxAttempts ≤ number + left) :
    Walk.Leads (Step env G scope)
      (fun p w => Visits run k node p w ∧ w.db.nextAttempt run.id node.id = number)
      (tryAction env g run node left number) (fun _ => Walks run k) (Ends run k) := by
  induction left generalizing number with
  | zero => exact leads_tryOnce hg hn hc hd fun hmore => by omega
  | succ left ih => exact leads_tryOnce hg hn hc hd fun _ => ih (number + 1) (by omega)

/-- An action is tried, or its run fails because all attempts are used. -/
theorem leads_executeAction (hg : G run.definition g) (hn : g.node? node.id = some node)
    (hc : ∀ c, node.config ≠ .condition c) (hd : node.type ≠ .delay) :
    Walk.Leads (Step env G scope) (Visits run k node) (executeAction env g run node)
      (fun _ => Walks run k) (Ends run k) := by
  have used : ∀ (isUsedUp : Bool) (number : Int) (error : String), Walk.Leads (Step env G scope)
      (fun p w => Visits run k node p w ∧ w.db.nextAttempt run.id node.id = number)
      (if isUsedUp then failWalk env run.id error
        else tryAction env g run node (env.rules.strategy.maxAttempts - number).toNat number)
      (fun _ => Walks run k) (Ends run k) := by
    intro isUsedUp number error
    split
    · exact leads_failWalk_of_walks _ fun _ _ hw => hw.1.1
    · exact leads_tryAction hg hn hc hd _ number (by omega)
  unfold executeAction
  refine .bind (leads_nextAttempt (calm_visits run k node) fun f _ _ hw => hw.1.failed f)
    fun number => ?_
  have calm := calm_visits_number (σ := σ) run k node number
  dsimp only
  split
  · refine .bind ((keeps_look _ _).walk calm fun f _ _ hw => hw.1.1.failed f) fun succeeded => ?_
    exact .bind (.pure _ fun _ _ hw => hw) fun _ => used _ number _
  · exact .bind (.pure _ fun _ _ hw => hw) fun _ => used _ number _

/-! ## The walk -/

/-- A node is executed; a run that is resumed on a delay passes it as one that is over. -/
theorem leads_executeNode (hg : G run.definition g) (hn : g.node? node.id = some node)
    (resuming : Bool) (hover : resuming → scope.elapsed run.id node.id) :
    Walk.Leads (Step env G scope) (Visits run k node) (executeNode env g run node resuming)
      (fun _ => Walks run k) (Ends run k) := by
  unfold executeNode
  split
  · rename_i heq
    exact (leads_goOn _).pre fun p w hw => ⟨hw.1, onward_default hg hn (by simp [heq]) hw
      fun h => absurd (by simp [Node.type, heq, NodeConfig.type]) h⟩
  · rename_i heq
    exact leads_executeCondition hg hn heq
  · rename_i minutes heq
    have delayed : ∀ isOver : Bool, Walk.Leads (Step env G scope)
        (fun p w => Visits run k node p w ∧ (isOver → Passable scope run node w))
        (if isOver then goOn env run.id (g.nextNodeId? node.id .default)
          else executeDelay env run node minutes) (fun _ => Walks run k) (Ends run k) := by
      intro isOver
      split
      · exact (leads_goOn _).pre fun p w hw =>
          ⟨hw.1.1, onward_default hg hn (by simp [heq]) hw.1 (hw.2 ‹_›)⟩
      · exact (leads_executeDelay hg hn heq).pre fun _ _ hw => hw.1
    dsimp only
    split
    · rename_i hresuming
      exact .bind (.pure _ fun _ _ hw => ⟨hw, fun _ _ => Or.inr
        ⟨by simp [Node.type, heq, NodeConfig.type], hover hresuming⟩⟩) fun _ => delayed _
    · refine .bind (.engine (fun p => (leads_look _ _ (calm_visits run k node p)).post
        fun found w hw => ?_) fun f _ _ hw => hw.1.1.failed f) fun _ => delayed _
      exact ⟨hw.1, fun hfound _ => Or.inl (Database.settled_of_hasSuccess (hw.2 ▸ hfound))⟩
  · rename_i hcondition hdelay
    exact leads_executeAction hg hn (fun c heq => by simp_all) fun htype => by
      cases hconfig : node.config <;> simp_all [Node.type, NodeConfig.type]

/-- A walk of a run that is resumed is on a delay that is over, until it has made a step. -/
def Resumes (scope : Scope) (run : Run) (k : Nat) (p : Progress) (w : World σ) : Prop :=
  Walks run k p w ∧ (p.resuming → scope.elapsed run.id p.node)

theorem calm_resumes (scope : Scope) (run : Run) (k : Nat) (p : Progress) :
    Calm (Resumes (σ := σ) scope run k p) :=
  (calm_walks run k p).and (.const _)

theorem leads_whileRunning {x : Walk σ Unit} {m : Nat} (hm : k ≤ m)
    (hx : Walk.Leads (Step env G scope) (Resumes scope run k) x
      (fun _ p w => Walks run m p w ∧ p.outcome.state.isSome) (Ends run m)) :
    Walk.Leads (Step env G scope) (Resumes scope run k) (whileRunning env run.id x)
      (fun _ p w => Walks run m p w ∧ p.outcome.state.isSome) (Ends run m) := by
  unfold whileRunning
  refine .bind (.engine (fun p => leads_stateOf run.id (calm_resumes scope run k p) ?_)
    fun f _ _ hw => (hw.1.1.mono hm).failed f) fun state => ?_
  · intro w hw
    obtain ⟨o, ho, hid, -⟩ := hw.1.stands
    exact ⟨o, ho, hid⟩
  · split
    · exact hx.pre fun _ _ hw => hw.1
    · rename_i hstate
      refine .settle fun p w hw => ?_
      obtain ⟨⟨hwalks, -⟩, o, ho, hid, rfl⟩ := hw
      have hrests := rests_of_state_ne ho hid fun h => hstate (congrArg some h)
      exact ⟨(hwalks.mono hm).settled hrests, rfl⟩

/-- A step counts one, and what follows goes on from where it has come. -/
theorem leads_takeStep {further : Walk σ Unit} {m : Nat} (hg : G run.definition g) (hm : k + 1 ≤ m)
    (hfurther : Walk.Leads (Step env G scope) (Resumes scope run (k + 1)) further
      (fun _ p w => Walks run m p w ∧ p.outcome.state.isSome) (Ends run m)) :
    Walk.Leads (Step env G scope) (Resumes scope run k) (takeStep env g run further)
      (fun _ p w => Walks run m p w ∧ p.outcome.state.isSome) (Ends run m) := by
  have grow : ∀ (h : Halt) (p : Progress) (w : World σ),
      Ends run (k + 1) h p w → Ends run m h p w :=
    fun _ _ _ hw => hw.mono hm
  unfold takeStep
  refine .bind (B := fun _ => Resumes scope run (k + 1)) (.update fun p w hw => ?_) fun _ => ?_
  · obtain ⟨⟨hdistinct, hstands, hsteps, htold⟩, hover⟩ := hw
    exact ⟨⟨hdistinct, hstands, Nat.succ_le_succ hsteps, htold⟩, hover⟩
  refine .bind (B := fun q p w => Resumes scope run (k + 1) p w ∧ q = p)
    (.progress fun p w hw => ⟨hw, rfl⟩) fun q => ?_
  split
  · exact (leads_failWalk _).conseq (fun _ _ hw => hw.1.1) (fun _ _ _ hw => ⟨hw.1.mono hm, hw.2⟩)
      grow
  · rename_i node hnode
    have hid : node.id = q.node := by simpa using List.find?_some hnode
    have hn : g.node? node.id = some node := hid ▸ hnode
    refine .assume (q := q.resuming → scope.elapsed run.id node.id) (fun p w hw => ?_)
      fun hover => ?_
    · rw [hid, hw.2]
      exact hw.1.2
    refine .bind ((leads_executeNode hg hn q.resuming hover).conseq
      (fun p w hw => ⟨hw.1.1, by rw [hid, hw.2]⟩) (fun _ _ _ hw => hw) grow) fun _ => ?_
    refine .bind (B := fun _ => Resumes scope run (k + 1)) (.update fun p w hw => ?_) fun _ => ?_
    · exact ⟨⟨hw.distinct, hw.stands, hw.steps_le, hw.told⟩, by simp⟩
    refine .bind (B := fun q p w => Resumes scope run (k + 1) p w ∧ q = p)
      (.progress fun p w hw => ⟨hw, rfl⟩) fun q => ?_
    split
    · exact hfurther.pre fun _ _ hw => hw.1
    · rename_i hsome
      refine .pure _ fun p w hw => ⟨hw.1.1.mono hm, ?_⟩
      rw [← hw.2]
      exact Option.isSome_iff_ne_none.2 (by simpa using hsome)

/-- A walk of at most `n` nodes tells the state that its run rests in, unless it ends early. -/
theorem leads_walk (hg : G run.definition g) (n k : Nat) :
    Walk.Leads (Step env G scope) (Resumes scope run k) (walk env g run n)
      (fun _ p w => Walks run (k + n) p w ∧ p.outcome.state.isSome) (Ends run (k + n)) := by
  induction n generalizing k with
  | zero => exact leads_whileRunning (Nat.le_refl k) ((leads_failWalk _).pre fun _ _ hw => hw.1)
  | succ n ih =>
    have hnext := ih (k + 1)
    rw [show k + 1 + n = k + (n + 1) by omega] at hnext
    exact leads_whileRunning (by omega) (leads_takeStep hg (by omega) hnext)

end Engine

end CrmAutomation
