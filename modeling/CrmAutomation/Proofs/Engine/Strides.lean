import CrmAutomation.Proofs.Engine.Logs
import CrmAutomation.Proofs.Graph.Ways

/-!
# Runs on graphs that may be published

What the validation of a graph promises to those who execute it: a run on a node of the graph goes
along its edges only, and is never completed on a condition (`Graph.Carries`), as either branch of a
condition leads to a node. It always finds its node, and as the rank of the node falls with every
move, an advance makes no more steps than the graph has nodes, whatever bound is put on them
(`Engine.strides_walk`).

Nothing is asked of the trail of the run, of the host or of the way in which the advance ends: the
triples of this file go by deeds (`Stride`), from every world in which the run stands on a node of
the graph.
-/

namespace CrmAutomation

variable {σ α : Type}

/-! ## What becomes of a row -/

/-- A row that is on its node still, and was not completed. -/
structure Run.Lingers (r r' : Run) : Prop where
  definition_eq : r'.definition = r.definition
  node_eq : r'.node = r.node
  completed : r'.state = .completed → r.state = .completed

/-- A row that is on its node still or where the graph leads from there, and was completed only if
it is on a node that is no condition. -/
structure Graph.Carries (g : Graph) (r r' : Run) : Prop where
  definition_eq : r'.definition = r.definition
  moved : r'.node = r.node ∨ g.Next r.node r'.node
  completed : r'.state = .completed → r.state ≠ .completed →
    r'.node = r.node ∧ ∀ n, g.node? r.node = some n → n.type ≠ .condition

/-- What the graph makes of the row of a run, from one database to another. -/
def Database.Carries (g : Graph) (id : String) (d d' : Database) : Prop :=
  ∀ r ∈ d.runs, ∀ r' ∈ d'.runs, r.id = id → r'.id = id → g.Carries r r'

/-- A command that neither moves nor completes the run. -/
def RunCommand.Spares (id : String) : RunCommand → Prop
  | .moveTo run _ | .suspend run _ _ | .complete run => run ≠ id
  | _ => True

namespace Run.Lingers

variable {r r' r'' : Run}

theorem refl (r : Run) : r.Lingers r := ⟨rfl, rfl, fun done => done⟩

theorem trans (h : r.Lingers r') (h' : r'.Lingers r'') : r.Lingers r'' :=
  ⟨h'.definition_eq.trans h.definition_eq, h'.node_eq.trans h.node_eq,
    fun done => h.completed (h'.completed done)⟩

theorem of_conceded (h : r.Conceded r') : r.Lingers r' := by
  refine ⟨h.definition_eq, h.node_eq, fun done => ?_⟩
  rcases h.state_eq with heq | heq
  · rwa [← heq]
  · simp [heq] at done

theorem carries (h : r.Lingers r') (g : Graph) : g.Carries r r' :=
  ⟨h.definition_eq, Or.inl h.node_eq, fun done open_ => absurd (h.completed done) open_⟩

end Run.Lingers

/-- Where the ids are distinct, a row is left where it is by a command that spares it. -/
theorem RunCommand.lingers {c : RunCommand} {id : String} {now : Instant} {d : Database} {r r' : Run}
    (spares : c.Spares id) (distinct : (d.runs.map (·.id)).Nodup) (hr : r ∈ d.runs)
    (hid : r.id = id) (hr' : r' ∈ (c.perform now d).runs) (hid' : r'.id = id) : r.Lingers r' := by
  have same : ∀ o ∈ d.runs, o.id = id → o = r := fun o ho hoid =>
    List.inj_on_of_nodup_map distinct ho hr (hoid.trans hid.symm)
  have written : ∀ {key : String} {guard : Run → Bool} {change : Run → Run},
      r' ∈ (d.updateRun key guard change).2.runs → (∀ o, (change o).id = o.id) →
      (key = id → r.Lingers (change r)) → r.Lingers r' := by
    intro key guard change hmem hchange hlingers
    obtain ⟨o, ho, rfl | ⟨hkey, -, rfl⟩⟩ := Database.exists_of_mem_updateRun hmem
    · exact same r' ho hid' ▸ .refl r'
    · obtain rfl := same o ho ((hchange o).symm.trans hid')
      exact hlingers (hkey.symm.trans hid)
  cases c with
  | create key definition contact node event depth =>
    simp only [perform] at hr'
    rcases Database.createRun_cases now key definition contact node event depth d with
      ⟨-, heq⟩ | ⟨free, heq⟩ <;> rw [heq] at hr'
    · exact same r' hr' hid' ▸ .refl r'
    · rcases List.mem_append.1 hr' with hr' | hr'
      · exact same r' hr' hid' ▸ .refl r'
      · rw [List.mem_singleton.1 hr'] at hid'
        exact absurd (hid.trans hid'.symm) (free r hr).1
  | moveTo | suspend | complete =>
    exact written hr' (fun _ => rfl) fun h => absurd h spares
  | fail | cancel | claimSuspended | release =>
    exact written hr' (fun _ => rfl) fun _ => ⟨rfl, rfl, by simp [Database.ended]⟩
  | claimStale => exact written hr' (fun _ => rfl) fun _ => ⟨rfl, rfl, fun done => done⟩

namespace Database.Concedes

variable {d d' : Database} {g : Graph} {id : String}

theorem exists_row (h : d.Concedes d') (distinct : (d.runs.map (·.id)).Nodup) {r r' : Run}
    (hr : r ∈ d.runs) (hr' : r' ∈ d'.runs) (hid : r'.id = r.id) : r.Conceded r' := by
  obtain ⟨o, ho, hconceded⟩ := h.exists_before hr'
  obtain rfl := List.inj_on_of_nodup_map distinct ho hr (hconceded.id_eq.symm.trans hid)
  exact hconceded

/-- Others leave a row where it is. -/
theorem carries (h : d.Concedes d') (distinct : (d.runs.map (·.id)).Nodup) :
    d.Carries g id d' := fun _ hr _ hr' hid hid' =>
  (Run.Lingers.of_conceded (h.exists_row distinct hr hr' (hid'.trans hid.symm))).carries g

/-- A guarded write carries a row if the change does, as long as the run is running. -/
theorem carries_updateRun {change : Run → Run} (h : d.Concedes d')
    (distinct : (d.runs.map (·.id)).Nodup)
    (hcarries : ∀ r ∈ d.runs, r.id = id → r.state = .running → g.Carries r (change r)) :
    d.Carries g id (d'.updateRun id isRunning change).2 := by
  intro r hr r' hr' hid hid'
  obtain ⟨o, ho, rfl | ⟨hoid, hrunning, rfl⟩⟩ := exists_of_mem_updateRun hr'
  · exact h.carries distinct r hr r' ho hid hid'
  · have hstate := RunCommand.running_of_isRunning hrunning
    rcases h.exists_row distinct hr ho (hoid.trans hid.symm) with rfl | ⟨-, time, rfl⟩
    · exact hcarries o hr hid hstate
    · simp [ended] at hstate

end Database.Concedes

/-- A deed whose commands spare a run leaves its row where it is. -/
theorem Deed.lingers {env : Environment σ} {remit : Remit} {w w' : World σ} {id : String}
    {r r' : Run} (h : Deed env remit w w') (spares : ∀ c, remit.orders c → c.Spares id)
    (distinct : Distinct w) (hr : r ∈ w.db.runs) (hid : r.id = id) (hr' : r' ∈ w'.db.runs)
    (hid' : r'.id = id) : r.Lingers r' := by
  have conceded : ∀ {d : Database}, w.db.Concedes d → ∀ o ∈ d.runs, o.id = id → r.Lingers o :=
    fun hd o ho hoid => .of_conceded (hd.exists_row distinct hr ho (hoid.trans hid.symm))
  rcases h.database with hd | ⟨d, c, hd, ordered, now, hdb⟩ | ⟨d, o, hd, -, hdb⟩
  · exact conceded hd r' hr' hid'
  · obtain ⟨q, hq, hc⟩ := hd.exists_after hr
    have hqid := hc.id_eq.trans hid
    exact (conceded hd q hq hqid).trans <| RunCommand.lingers (spares c ordered)
      (hd.ids_eq ▸ distinct) hq hqid (hdb ▸ hr') hid'
  · rw [hdb] at hr'
    exact conceded hd r' hr' hid'

/-- No deed removes a row, or gives it to another definition. -/
theorem Deed.exists_after {env : Environment σ} {remit : Remit} {w w' : World σ} {r : Run}
    (h : Deed env remit w w') (hr : r ∈ w.db.runs) :
    ∃ r' ∈ w'.db.runs, r'.id = r.id ∧ r'.definition = r.definition := by
  rcases h.database with hd | ⟨d, c, hd, -, now, hdb⟩ | ⟨d, o, hd, -, hdb⟩ <;>
    obtain ⟨q, hq, hc⟩ := hd.exists_after hr
  · exact ⟨q, hq, hc.id_eq, hc.definition_eq⟩
  · obtain ⟨r', hr', rfl | hwrite⟩ := c.exists_perform now hq
    · exact ⟨r', hdb ▸ hr', hc.id_eq, hc.definition_eq⟩
    · exact ⟨r', hdb ▸ hr', hwrite.id_eq.trans hc.id_eq,
        hwrite.definition_eq.trans hc.definition_eq⟩
  · exact ⟨q, hdb ▸ hq, hc.id_eq, hc.definition_eq⟩

/-! ## Strides -/

/-- A path on which every step from where `A` holds is one of another kind, and keeps `A`. -/
theorem Path.keep_steps {S T : World σ → World σ → Prop} {A : World σ → Prop} {w w' : World σ}
    (h : Path S w w') (hA : ∀ a b, S a b → A a → T a b ∧ A b) (hw : A w) :
    Path T w w' ∧ A w' := by
  induction h with
  | refl => exact ⟨.refl, hw⟩
  | tail _ hstep ih =>
    obtain ⟨hpath, ha⟩ := ih
    obtain ⟨hstep', hb⟩ := hA _ _ hstep ha
    exact ⟨hpath.tail hstep', hb⟩

/-- A deed of an advance that carries its run along the graph. -/
structure Stride (env : Environment σ) (g : Graph) (run : Run) (w w' : World σ) : Prop where
  deed : Deed env (.advancing run) w w'
  carries : w.db.Carries g run.id w'.db

/-- The run is in the database, on the node. -/
structure Located (run : Run) (node : String) (w : World σ) : Prop where
  distinct : Distinct w
  stands : Stands run node w

/-- A walk that has made `k` steps is where the database has its run. -/
structure Treads (run : Run) (node : String) (k : Nat) (p : Progress) (w : World σ) : Prop where
  located : Located run node w
  node_eq : p.node = node
  steps_eq : p.outcome.steps = k

/-- A walk is done with a node: it tells the state that its run is in, or has gone where the graph
leads. -/
def Passes (g : Graph) (run : Run) (node : String) (k : Nat) (p : Progress) (w : World σ) : Prop :=
  Treads run node k p w ∧ p.outcome.state.isSome ∨
    ∃ next, g.Next node next ∧ Treads run next k p w

/-- A walk on a node of the graph that has made no more steps than there are nodes. -/
structure Within (g : Graph) (run : Run) (p : Progress) (w : World σ) : Prop where
  located : Located run p.node w
  hasNode : g.HasNode p.node
  steps_le : p.outcome.steps ≤ g.size

theorem Treads.within {g : Graph} {run : Run} {node : String} {k : Nat} {p : Progress} {w : World σ}
    (h : Treads run node k p w)
    (hnode : g.HasNode node) (hk : k ≤ g.size) : Within g run p w :=
  ⟨h.node_eq.symm ▸ h.located, h.node_eq.symm ▸ hnode, h.steps_eq.symm ▸ hk⟩

/-- A walk that is done with a node is on one of the graph. -/
theorem Passes.within {g : Graph} {run : Run} {node : String} {k : Nat} {p : Progress} {w : World σ}
    (h : Passes g run node k p w)
    (hnode : g.HasNode node) (hk : k ≤ g.size) : Within g run p w := by
  rcases h with ⟨htreads, -⟩ | ⟨next, hnext, htreads⟩
  · exact htreads.within hnode hk
  · exact htreads.within (Graph.hasNode_of_next hnext) hk

theorem calm_located (run : Run) (node : String) : Calm (Located (σ := σ) run node) :=
  fun w w' h hw => ⟨calm_distinct w w' h hw.distinct, calm_stands run node w w' h hw.stands⟩

/-- An advance may read, record and fail its run while it stays on its node. -/
def Remit.staying (run : Run) : Remit :=
  ⟨fun _ => True, fun c => ∃ error, c = .fail run.id error, (· = run.definition)⟩

theorem Remit.staying_within_advancing (run : Run) : (staying run).Within (advancing run) := by
  refine ⟨fun _ _ => trivial, ?_, fun _ h => h⟩
  rintro _ ⟨error, rfl⟩
  rfl

/-- The row of a run that is on a node. -/
theorem Located.row_eq {run r : Run} {node : String} {w : World σ} (h : Located run node w)
    (hr : r ∈ w.db.runs) (hid : r.id = run.id) : r.definition = run.definition ∧ r.node = node := by
  obtain ⟨o, ho, hoid, hos⟩ := h.stands
  rwa [h.distinct.eq_of_id_eq hr ho (hid.trans hoid.symm)]

/-- What follows a part of a walk matters only where that part leads. -/
theorem Walk.Leads.run_bind_congr {β : Type} {S : World σ → World σ → Prop}
    {A : Progress → World σ → Prop} {B : α → Progress → World σ → Prop}
    {X : Halt → Progress → World σ → Prop} {x : Walk σ α} {f f' : α → Walk σ β} {p : Progress}
    {w : World σ} (hx : Walk.Leads S A x B X) (hw : A p w)
    (hf : ∀ a p w, B a p w → (f a).run (p, w) = (f' a).run (p, w)) :
    (x >>= f).run (p, w) = (x >>= f').run (p, w) := by
  obtain ⟨-, hend⟩ := hx p w hw
  rw [Walk.run_bind, Walk.run_bind]
  rcases hrun : x.run (p, w) with ⟨e | a, p', w'⟩
  · rfl
  · rw [hrun] at hend
    exact hf a p' w' hend

namespace Engine

variable {env : Environment σ} {g : Graph} {run : Run} {node : String} {k : Nat}

theorem stays_located {x : Engine σ α} (hx : Does env (.staying run) x) :
    Stays (Stride env g run) (Located run node) x := by
  refine stays_iff.2 fun w hw => (hx.path w).keep_steps (fun w w' hdeed hw => ?_) hw
  have spares : ∀ c, (Remit.staying run).orders c → c.Spares run.id := by
    rintro _ ⟨error, rfl⟩
    trivial
  have hlingers : ∀ r ∈ w.db.runs, ∀ r' ∈ w'.db.runs, r.id = run.id → r'.id = run.id →
      r.Lingers r' :=
    fun r hr r' hr' hid hid' => hdeed.lingers spares hw.distinct hr hid hr' hid'
  refine ⟨⟨hdeed.mono (Remit.staying_within_advancing run), fun r hr r' hr' hid hid' =>
    (hlingers r hr r' hr' hid hid').carries g⟩, hdeed.distinct hw.distinct, ?_⟩
  obtain ⟨r, hr, hid, hdefinition, hnode⟩ := hw.stands
  obtain ⟨r', hr', hid', -⟩ := hdeed.exists_after hr
  have hsame := hlingers r hr r' hr' hid (hid'.trans hid)
  exact ⟨r', hr', hid'.trans hid, hsame.definition_eq.trans hdefinition,
    hsame.node_eq.trans hnode⟩

/-- A computation in which the run stays on its node leaves the walk where it is. -/
theorem treads_engine {x : Engine σ α} (hx : Does env (.staying run) x) :
    Walk.Leads (Stride env g run) (Treads run node k) (Walk.engine x)
      (fun _ => Treads run node k) (fun _ => Treads run node k) := by
  refine .engine (E := Treads run node k) (fun p => ?_) fun _ _ _ hw => hw
  refine .assume (p := p.node = node ∧ p.outcome.steps = k)
    (fun w hw => ⟨hw.node_eq, hw.steps_eq⟩) fun ⟨hnode, hsteps⟩ => ?_
  exact (stays_located hx).conseq (fun _ hw => hw.located) (fun _ _ hw => ⟨hw, hnode, hsteps⟩)
    fun _ hw => ⟨hw, hnode, hsteps⟩

/-! ## Writes -/

/-- A guarded write carries the run to another node, or finds that it is not running. -/
theorem leads_write (next : String) {change : Instant → Run → Run} (call : StorageCall)
    (c : RunCommand) (old : c.isCreate = false) (ordered : Remit.Progresses run.id c)
    (hc : ∀ time db, (Database.updateRun run.id Database.isRunning (change time) db).2 =
      c.perform time db)
    (hid : ∀ time r, (change time r).id = r.id)
    (hnext : ∀ time r, r.node = node → (change time r).node = next)
    (hcarries : ∀ time r, r.node = node → r.state = .running → g.Carries r (change time r)) :
    Leads (Stride env g run) (Located run node)
      (stored env call fun time => Database.updateRun run.id Database.isRunning (change time))
      (fun done => Located run (if done then next else node)) (Located run node) := by
  intro w hw
  have hconcedes := w.concedes_interrupted env call
  have hseen : Located run node (w.interrupted env call) :=
    calm_located run node w _ hconcedes hw
  rw [run_stored]
  split
  · exact ⟨.single ⟨.interrupt call trivial, hconcedes.carries hw.distinct⟩, hseen⟩
  · refine ⟨.single ⟨?_, ?_⟩, ?_⟩
    · rw [hc]
      exact .command call c old trivial ordered
    · exact hconcedes.carries_updateRun hw.distinct fun r hr hrid =>
        hcarries _ r (hw.row_eq hr hrid).2
    · dsimp only
      cases hdone : (Database.updateRun run.id Database.isRunning
        (change ((w.interrupted env call).clock.later 1)) (w.interrupted env call).db).1 with
      | true =>
        obtain ⟨r, hr, hrid, hrunning, hmem⟩ := Database.updateRun_eq_true hdone
        obtain ⟨hdefinition, hnode⟩ := hseen.row_eq hr hrid
        refine ⟨?_, _, hmem, (hid _ r).trans hrid,
          (hcarries _ r hnode hrunning).definition_eq.trans hdefinition, hnext _ r hnode⟩
        rw [Distinct, hc]
        exact c.nodup_ids_perform _ hseen.distinct
      | false =>
        rw [(Database.updateRun_eq_false hdone).1]
        exact ⟨hseen.distinct, hseen.stands⟩

/-- A walk writes to its run where it stands. -/
theorem treads_write (next : String) {change : Instant → Run → Run} (call : StorageCall)
    (c : RunCommand) (old : c.isCreate = false) (ordered : Remit.Progresses run.id c)
    (hc : ∀ time db, (Database.updateRun run.id Database.isRunning (change time) db).2 =
      c.perform time db)
    (hid : ∀ time r, (change time r).id = r.id)
    (hnext : ∀ time r, r.node = node → (change time r).node = next)
    (hcarries : ∀ time r, r.node = node → r.state = .running → g.Carries r (change time r)) :
    Walk.Leads (Stride env g run) (Treads run node k)
      (Walk.engine (stored env call fun time =>
        Database.updateRun run.id Database.isRunning (change time)))
      (fun done p w => Located run (if done then next else node) w ∧ p.node = node ∧
        p.outcome.steps = k)
      (fun _ => Treads run node k) := by
  refine .engine (E := Treads run node k) (fun p => ?_) fun _ _ _ hw => hw
  refine .assume (p := p.node = node ∧ p.outcome.steps = k)
    (fun w hw => ⟨hw.node_eq, hw.steps_eq⟩) fun hp => ?_
  exact (leads_write next call c old ordered hc hid hnext hcarries).conseq (fun _ hw => hw.located)
    (fun _ _ hw => ⟨hw, hp⟩) fun _ hw => ⟨hw, hp.1, hp.2⟩

/-- A run goes where the graph leads, and is completed where that is nowhere. -/
theorem strides_goOn (next : Option String) (hnext : ∀ id, next = some id → g.Next node id)
    (hend : next = none → ∀ n, g.node? node = some n → n.type ≠ .condition) :
    Walk.Leads (Stride env g run) (Treads run node k) (goOn env run.id next)
      (fun _ => Passes g run node k) (fun _ => Treads run node k) := by
  unfold goOn
  cases next with
  | none =>
    refine .bind (treads_write node .complete (.complete run.id) rfl rfl
      (fun _ _ => rfl) (fun _ _ => rfl) (fun _ _ h => h) ?_) fun done => ?_
    · rintro time r rfl -
      exact ⟨rfl, Or.inl rfl, fun _ _ => ⟨rfl, hend rfl⟩⟩
    · cases done with
      | true => exact .settle fun p w hw => Or.inl ⟨⟨hw.1, hw.2.1, hw.2.2⟩, rfl⟩
      | false => exact .halt fun p w hw => ⟨hw.1, hw.2.1, hw.2.2⟩
  | some id =>
    refine .bind (treads_write id .moveTo (.moveTo run.id id) rfl rfl
      (fun _ _ => rfl) (fun _ _ => rfl) (fun _ _ _ => rfl) ?_) fun done => ?_
    · rintro time r rfl hrunning
      exact ⟨rfl, Or.inr (hnext id rfl), fun done => by simp [hrunning] at done⟩
    · cases done with
      | true =>
        simp only [if_true]
        exact .update fun p w hw => Or.inr ⟨id, hnext id rfl, hw.1, rfl, hw.2.2⟩
      | false => exact .halt fun p w hw => ⟨hw.1, hw.2.1, hw.2.2⟩

/-! ## Ends -/

theorem strides_stateOf :
    Leads (Stride env g run) (Located run node) (stateOf env run.id)
      (fun state w => Located run node w ∧ state.isSome) (Located run node) := by
  have hstored : ∀ w : World σ, Located run node w → ∃ r ∈ w.db.runs, r.id = run.id := by
    rintro w ⟨-, r, hr, hid, -⟩
    exact ⟨r, hr, hid⟩
  have hread : Leads (Step env (fun _ _ => True) .free) (Located run node) (stateOf env run.id)
      _ _ := leads_stateOf run.id (calm_located run node) hstored
  refine ((stays_located (does_stateOf run.id trivial)).and hread).conseq (fun _ hw => ⟨hw, hw⟩)
    (fun state w hw => ⟨hw.1, ?_⟩) fun _ hw => hw.1
  obtain ⟨-, -, r, -, -, rfl⟩ := hw
  rfl

theorem strides_failRun (error : String) (o : Outcome) :
    Leads (Stride env g run) (Located run node) (failRun env run.id error o)
      (fun o' w => Located run node w ∧ o'.steps = o.steps ∧ o'.state.isSome)
      (Located run node) := by
  unfold failRun
  refine .bind (stays_located (does_stored .fail (.fail run.id error) rfl trivial ⟨error, rfl⟩
    fun _ _ => rfl)) fun done => ?_
  split
  · exact .pure _ fun w hw => ⟨hw, rfl, rfl⟩
  · exact .bind strides_stateOf fun state => .pure _ fun w hw => ⟨hw.1, rfl, hw.2⟩

theorem strides_failWalk (error : String) :
    Walk.Leads (Stride env g run) (Treads run node k) (failWalk env run.id error)
      (fun _ p w => Treads run node k p w ∧ p.outcome.state.isSome)
      (fun _ => Treads run node k) := by
  unfold failWalk
  refine .bind (B := fun q p w => Treads run node k p w ∧ q = p) (.progress fun p w hw => ⟨hw, rfl⟩)
    fun q => ?_
  refine .bind (B := fun o p w => Located run node w ∧ p.node = node ∧ o.steps = k ∧
    o.state.isSome) (.engine (E := Treads run node k) (fun p => ?_) fun _ _ _ hw => hw) fun o => ?_
  · refine .assume (p := q = p ∧ p.node = node ∧ p.outcome.steps = k)
      (fun w hw => ⟨hw.2, hw.1.node_eq, hw.1.steps_eq⟩) ?_
    rintro ⟨rfl, hnode, hsteps⟩
    exact (strides_failRun error q.outcome).conseq (fun w hw => hw.1.located)
      (fun o w hw => ⟨hw.1, hnode, hw.2.1.trans hsteps, hw.2.2⟩) fun w hw => ⟨hw, hnode, hsteps⟩
  · exact .update fun p w hw => ⟨⟨hw.1, hw.2.1, hw.2.2.1⟩, hw.2.2.2⟩

/-- A walk that fails its run is done with its node. -/
theorem passes_failWalk (error : String) :
    Walk.Leads (Stride env g run) (Treads run node k) (failWalk env run.id error)
      (fun _ => Passes g run node k) (fun _ => Treads run node k) :=
  (strides_failWalk error).conseq (fun _ _ hw => hw) (fun _ _ _ hw => Or.inl hw)
    fun _ _ _ hw => hw

/-! ## Nodes -/

/-- Either branch of a condition leads to a node. -/
theorem strides_executeCondition {n : Node} {c : Comparison}
    (hbranch : ∀ result, ∃ next, g.nextNodeId? n.id (.ofResult result) = some next) :
    Walk.Leads (Stride env g run) (Treads run n.id k) (executeCondition env g run n c)
      (fun _ => Passes g run n.id k) (fun _ => Treads run n.id k) := by
  unfold executeCondition
  refine .bind (treads_engine (does_look _ _ trivial)) fun number => ?_
  refine .bind (treads_engine (does_decideCondition run c).attempt) fun decided => ?_
  split
  · exact .bind (treads_engine (does_record _ _ _ _ _ _ _ trivial)) fun _ => passes_failWalk _
  · rename_i result
    obtain ⟨next, hnext⟩ := hbranch result
    refine .bind (treads_engine (does_record _ _ _ _ _ _ _ trivial)) fun _ => ?_
    rw [hnext]
    refine strides_goOn (some next) ?_ (by simp)
    rintro _ ⟨⟩
    exact ⟨_, hnext⟩

/-- A run is suspended on the delay that it is on. -/
theorem strides_executeDelay (n : Node) (minutes : Int) :
    Walk.Leads (Stride env g run) (Treads run n.id k) (executeDelay env run n minutes)
      (fun _ => Passes g run n.id k) (fun _ => Treads run n.id k) := by
  unfold executeDelay
  refine .bind (treads_engine does_now) fun time => ?_
  refine .bind (treads_engine (.ofExcept _)) fun resumeAt => ?_
  refine .bind (treads_write n.id .suspend (.suspend run.id n.id resumeAt) rfl rfl
    (fun _ _ => rfl) (fun _ _ => rfl) (fun _ _ _ => rfl) ?_) fun done => ?_
  · rintro time r hnode hrunning
    exact ⟨rfl, Or.inl hnode.symm, by simp⟩
  · refine .pre (A := Treads run n.id k) ?_ fun p w hw =>
      ⟨ite_self n.id ▸ hw.1, hw.2.1, hw.2.2⟩
    split
    · refine .bind (treads_engine (does_look _ _ trivial)) fun number => ?_
      exact .bind (treads_engine (does_record _ _ _ _ _ _ _ trivial)) fun _ =>
        .settle fun p w hw => Or.inl ⟨⟨hw.located, hw.node_eq, hw.steps_eq⟩, rfl⟩
    · exact .halt fun _ _ hw => hw

/-- A node that is no condition leads on by default. -/
theorem strides_goOn_default {n : Node} (hn : g.node? n.id = some n) (hc : n.type ≠ .condition) :
    Walk.Leads (Stride env g run) (Treads run n.id k)
      (goOn env run.id (g.nextNodeId? n.id .default)) (fun _ => Passes g run n.id k)
      (fun _ => Treads run n.id k) := by
  refine strides_goOn _ (fun next hnext => ⟨_, hnext⟩) fun _ m hm => ?_
  obtain rfl := Option.some.inj (hn.symm.trans hm)
  exact hc

theorem strides_tryOnce {n : Node} {number : Int} {again : Walk σ Unit}
    (hn : g.node? n.id = some n) (hc : n.type ≠ .condition)
    (hagain : Walk.Leads (Stride env g run) (Treads run n.id k) again
      (fun _ => Passes g run n.id k) (fun _ => Treads run n.id k)) :
    Walk.Leads (Stride env g run) (Treads run n.id k) (tryOnce env g run n number again)
      (fun _ => Passes g run n.id k) (fun _ => Treads run n.id k) := by
  unfold tryOnce
  refine .bind (treads_engine (does_attemptAction run n number trivial)) fun r => ?_
  refine .bind (treads_engine (does_record _ _ _ _ _ _ _ trivial)) fun _ => ?_
  split
  · exact .bind (.update fun p w hw => ⟨hw.located, hw.node_eq, hw.steps_eq⟩)
      fun _ => strides_goOn_default hn hc
  · split
    · exact passes_failWalk _
    · refine .bind (treads_engine does_draw) fun u => ?_
      refine .bind (treads_engine (.ofExcept _)) fun delay => ?_
      refine .bind (treads_engine (does_wait delay)) fun _ => ?_
      refine .bind (treads_engine (does_stateOf _ trivial)) fun state => ?_
      split
      · exact hagain
      · exact .bind (.settle fun p w hw => ⟨hw.located, hw.node_eq, hw.steps_eq⟩)
          fun _ => .halt fun _ _ hw => hw

theorem strides_tryAction {n : Node} (hn : g.node? n.id = some n) (hc : n.type ≠ .condition)
    (left : Nat) (number : Int) :
    Walk.Leads (Stride env g run) (Treads run n.id k) (tryAction env g run n left number)
      (fun _ => Passes g run n.id k) (fun _ => Treads run n.id k) := by
  induction left generalizing number with
  | zero => exact strides_tryOnce hn hc (.halt fun _ _ hw => hw)
  | succ left ih => exact strides_tryOnce hn hc (ih (number + 1))

theorem strides_executeAction {n : Node} (hn : g.node? n.id = some n)
    (hc : n.type ≠ .condition) :
    Walk.Leads (Stride env g run) (Treads run n.id k) (executeAction env g run n)
      (fun _ => Passes g run n.id k) (fun _ => Treads run n.id k) := by
  have used : ∀ (isUsedUp : Bool) (number : Int) (error : String),
      Walk.Leads (Stride env g run) (Treads run n.id k) (if isUsedUp then failWalk env run.id error
        else tryAction env g run n (env.rules.strategy.maxAttempts - number).toNat number)
        (fun _ => Passes g run n.id k) (fun _ => Treads run n.id k) := by
    intro isUsedUp number error
    split
    · exact passes_failWalk _
    · exact strides_tryAction hn hc _ number
  unfold executeAction
  refine .bind (treads_engine (does_look _ _ trivial)) fun number => ?_
  dsimp only
  split
  · exact .bind (treads_engine (does_look _ _ trivial)) fun _ =>
      .bind (.pure _ fun _ _ hw => hw) fun _ => used _ number _
  · exact .bind (.pure _ fun _ _ hw => hw) fun _ => used _ number _

/-- A node is executed, and the walk is done with it or ends where it was. -/
theorem strides_executeNode {n : Node} (hn : g.node? n.id = some n)
    (forks : g.Forks) (resuming : Bool) :
    Walk.Leads (Stride env g run) (Treads run n.id k) (executeNode env g run n resuming)
      (fun _ => Passes g run n.id k) (fun _ => Treads run n.id k) := by
  unfold executeNode
  split
  · rename_i heq
    exact strides_goOn_default hn (by simp [Node.type, heq, NodeConfig.type])
  · rename_i heq
    exact strides_executeCondition
      (forks n (Graph.node?_spec hn).1 (by simp [Node.type, heq, NodeConfig.type]))
  · rename_i minutes heq
    have delayed : ∀ isOver : Bool, Walk.Leads (Stride env g run) (Treads run n.id k)
        (if isOver then goOn env run.id (g.nextNodeId? n.id .default)
          else executeDelay env run n minutes)
        (fun _ => Passes g run n.id k) (fun _ => Treads run n.id k) := by
      intro isOver
      split
      · exact strides_goOn_default hn (by simp [Node.type, heq, NodeConfig.type])
      · exact strides_executeDelay n minutes
    dsimp only
    split
    · exact .bind (.pure _ fun _ _ hw => hw) fun _ => delayed _
    · exact .bind (treads_engine (does_look _ _ trivial)) fun _ => delayed _
  · rename_i hcondition hdelay
    refine strides_executeAction hn fun htype => ?_
    cases hconfig : n.config <;> simp_all [Node.type, NodeConfig.type]

/-! ## The walk -/

theorem strides_whileRunning {x : Walk σ Unit} (hnode : g.HasNode node) (hk : k ≤ g.size)
    (hx : Walk.Leads (Stride env g run) (Treads run node k) x
      (fun _ => Within g run) (fun _ => Within g run)) :
    Walk.Leads (Stride env g run) (Treads run node k) (whileRunning env run.id x)
      (fun _ => Within g run) (fun _ => Within g run) := by
  have stays : Walk.Leads (Stride env g run) (Treads run node k)
      (Walk.engine (stateOf env run.id)) (fun _ => Treads run node k)
      (fun _ => Within g run) :=
    (treads_engine (does_stateOf _ trivial)).conseq (fun _ _ hw => hw) (fun _ _ _ hw => hw)
      fun _ _ _ hw => hw.within hnode hk
  refine .bind stays fun state => ?_
  split
  · exact hx
  · refine .settle fun p w hw => ?_
    obtain ⟨hlocated, hhas, hsteps⟩ := hw.within hnode hk
    exact ⟨hlocated, hhas, hsteps⟩

/-- A step of a walk without what follows it: whether there is something to follow. -/
def stepOn (env : Environment σ) (graph : Graph) (run : Run) : Walk σ Bool := do
  Walk.update fun p => { p with outcome := { p.outcome with steps := p.outcome.steps + 1 } }
  let p ← Walk.progress
  match graph.node? p.node with
  | none =>
    failWalk env run.id ("Node " ++ p.node ++ " is not in the graph")
    return false
  | some node =>
    executeNode env graph run node p.resuming
    Walk.update fun p => { p with resuming := false }
    return (← Walk.progress).outcome.state.isNone

theorem takeStep_eq (further : Walk σ Unit) :
    takeStep env g run further = (do if ← stepOn env g run then further) := by
  unfold takeStep stepOn
  simp only [bind_assoc]
  refine bind_congr fun _ => bind_congr fun p => ?_
  cases g.node? p.node <;> simp

/-- A step of a walk is made on a node that is found, and the next one where the graph leads. -/
theorem strides_stepOn (forks : g.Forks) (hnode : g.HasNode node) (hk : k < g.size) :
    Walk.Leads (Stride env g run) (Treads run node k) (stepOn env g run)
      (fun goes p w => Within g run p w ∧
        (goes → ∃ next, g.Next node next ∧ Treads run next (k + 1) p w))
      (fun _ => Within g run) := by
  obtain ⟨n, hn⟩ := Graph.exists_node?_of_hasNode hnode
  obtain rfl : n.id = node := (Graph.node?_spec hn).2
  unfold stepOn
  refine .bind (B := fun _ => Treads run n.id (k + 1))
    (.update fun p w hw => ⟨hw.located, hw.node_eq, by rw [hw.steps_eq]⟩) fun _ => ?_
  refine .bind (B := fun q p w => Treads run n.id (k + 1) p w ∧ q.node = n.id)
    (.progress fun p w hw => ⟨hw, hw.node_eq⟩) fun q => ?_
  refine .assume (fun _ _ hw => hw.2) fun hq => ?_
  rw [hq, hn]
  refine .bind ((strides_executeNode hn forks q.resuming).conseq (fun _ _ hw => hw.1)
    (fun _ _ _ hw => hw) fun _ _ _ hw => hw.within hnode hk) fun _ => ?_
  refine .bind (B := fun _ => Passes g run n.id (k + 1)) (.update fun p w hw => ?_) fun _ => ?_
  · rcases hw with ⟨htreads, hsome⟩ | ⟨next, hnext, htreads⟩
    · exact Or.inl ⟨⟨htreads.located, htreads.node_eq, htreads.steps_eq⟩, hsome⟩
    · exact Or.inr ⟨next, hnext, htreads.located, htreads.node_eq, htreads.steps_eq⟩
  refine .bind (B := fun q p w => Passes g run n.id (k + 1) p w ∧ q = p)
    (.progress fun p w hw => ⟨hw, rfl⟩) fun q => .pure _ ?_
  rintro p w ⟨hpasses, rfl⟩
  refine ⟨hpasses.within hnode hk, fun hnone => ?_⟩
  rcases hpasses with ⟨-, hsome⟩ | hnext
  · simp [Option.isNone_iff_eq_none.1 hnone] at hsome
  · exact hnext

theorem strides_takeStep {further : Walk σ Unit} (forks : g.Forks) (hnode : g.HasNode node)
    (hk : k < g.size)
    (hfurther : ∀ next, g.Next node next → Walk.Leads (Stride env g run) (Treads run next (k + 1))
      further (fun _ => Within g run) (fun _ => Within g run)) :
    Walk.Leads (Stride env g run) (Treads run node k) (takeStep env g run further)
      (fun _ => Within g run) (fun _ => Within g run) := by
  rw [takeStep_eq]
  refine .bind (strides_stepOn forks hnode hk) fun goes => ?_
  split
  · rename_i hgoes
    rintro p w ⟨-, hnext⟩
    obtain ⟨next, hnext, htreads⟩ := hnext hgoes
    exact hfurther next hnext p w htreads
  · exact .pure _ fun p w hw => hw.1

/-- Every step of a walk is one of the ranks down, so there are no more than nodes. -/
theorem strides_walk {rank : String → Nat} (ranks : g.Ranks rank) (forks : g.Forks) (n : Nat)
    (hnode : g.HasNode node) (hk : k + rank node < g.size) :
    Walk.Leads (Stride env g run) (Treads run node k) (walk env g run n)
      (fun _ => Within g run) (fun _ => Within g run) := by
  induction n generalizing node k with
  | zero =>
    exact strides_whileRunning hnode (by omega) <| (passes_failWalk _).conseq (fun _ _ hw => hw)
      (fun _ _ _ hw => Passes.within hw hnode (by omega)) fun _ _ _ hw =>
        hw.within hnode (by omega)
  | succ n ih =>
    refine strides_whileRunning hnode (by omega) (strides_takeStep forks hnode (by omega) ?_)
    intro next hnext
    have hfalls := ranks.falls node next hnext
    exact ih (Graph.hasNode_of_next hnext) (by omega)

/-- No bound on the steps of a walk is reached that is above the rank of its node. -/
theorem run_walk_eq {rank : String → Nat} (ranks : g.Ranks rank) (forks : g.Forks) {m n : Nat}
    (hm : rank node < m) (hn : rank node < n) (hnode : g.HasNode node)
    (hk : k + rank node < g.size) {p : Progress} {w : World σ} (h : Treads run node k p w) :
    (walk env g run m).run (p, w) = (walk env g run n).run (p, w) := by
  induction m generalizing n node k p w with
  | zero => omega
  | succ m ih =>
    obtain ⟨n, rfl⟩ := Nat.exists_eq_succ_of_ne_zero (Nat.ne_zero_of_lt hn)
    refine (treads_engine (g := g) (does_stateOf run.id trivial)).run_bind_congr h
      fun state p w hw => ?_
    split
    · rw [takeStep_eq, takeStep_eq]
      refine (strides_stepOn forks hnode (by omega)).run_bind_congr hw fun goes p w hw => ?_
      split
      · rename_i hgoes
        obtain ⟨next, hnext, htreads⟩ := hw.2 hgoes
        have hfalls := ranks.falls node next hnext
        exact ih (by omega) (by omega) (Graph.hasNode_of_next hnext) (by omega) htreads
      · rfl
    · rfl

/-! ## Advances -/

/-- The graph that an advance of the run uses is this one, if there is any. -/
def Finds (run : Run) (g : Graph) (w : World σ) : Prop :=
  ∀ g', w.graphFor? run.definition = some g' → g' = g

theorem strides_graphOf :
    Leads (Stride env g run) (fun w => Located run node w ∧ Finds run g w)
      (graphOf env run.definition) (fun g' w => Located run node w ∧ g' = g)
      (Located run node) := by
  have hstays : Stays (Stride env g run) (Located run node) (graphOf env run.definition) :=
    stays_located (does_graphOf _ trivial rfl)
  have hfound : Leads (Step env (fun id g' => id = run.definition → g' = g) .free) _
      (graphOf env run.definition) _ _ :=
    leads_graphOf (.const True) run.definition
  exact (hstays.and hfound).conseq (fun w hw => ⟨hw.1, trivial, fun g' hg' _ => hw.2 g' hg'⟩)
    (fun g' w hw => ⟨hw.1, hw.2.2 rfl⟩) fun w hw => hw.1

theorem treads_graphOf :
    Walk.Leads (Stride env g run) (fun p w => Treads run node k p w ∧ Finds run g w)
      (Walk.engine (graphOf env run.definition)) (fun g' p w => Treads run node k p w ∧ g' = g)
      (fun _ => Treads run node k) := by
  refine .engine (E := Treads run node k) (fun p => ?_) fun _ _ _ hw => hw
  refine .assume (p := p.node = node ∧ p.outcome.steps = k)
    (fun w hw => ⟨hw.1.node_eq, hw.1.steps_eq⟩) fun ⟨hp, hsteps⟩ => ?_
  exact strides_graphOf.conseq (fun w hw => ⟨hw.1.located, hw.2⟩)
    (fun g' w hw => ⟨⟨hw.1, hp, hsteps⟩, hw.2⟩) fun w hw => ⟨hw, hp, hsteps⟩

theorem strides_walking {rank : String → Nat} (ranks : g.Ranks rank) (forks : g.Forks)
    (hnode : g.HasNode node) :
    Walk.Leads (Stride env g run) (fun p w => Treads run node 0 p w ∧ Finds run g w)
      (walking env run) (fun _ => Within g run) (fun _ => Within g run) := by
  refine .bind (treads_graphOf.conseq (fun _ _ hw => hw) (fun _ _ _ hw => hw)
    fun _ _ _ hw => hw.within hnode (Nat.zero_le _)) fun g' => ?_
  refine .assume (fun _ _ hw => hw.2) ?_
  rintro rfl
  have hbound := ranks.lt_size node hnode
  exact (strides_walk ranks forks _ hnode (by omega)).pre fun _ _ hw => hw.1

/-- The walk of a run with some bound on its steps. -/
def walkingUpTo (env : Environment σ) (run : Run) (limit : Graph → Nat) : Walk σ Unit := do
  let graph ← Walk.engine (graphOf env run.definition)
  walk env graph run (limit graph)

/-- The bound on the steps of a walk plays no part, unless it is less than the number of nodes. -/
theorem run_walkingUpTo_eq {rank : String → Nat} (ranks : g.Ranks rank) (forks : g.Forks)
    (hnode : g.HasNode node) {limit : Graph → Nat} (hlimit : g.size ≤ limit g) {p : Progress}
    {w : World σ} (h : Treads run node 0 p w) (hfinds : Finds run g w) :
    (walkingUpTo env run limit).run (p, w) = (walking env run).run (p, w) := by
  have hgraph : Walk.Leads (Stride env g run) (fun p w => Treads run node 0 p w ∧ Finds run g w)
      (Walk.engine (graphOf env run.definition)) (fun g' p w => Treads run node 0 p w ∧ g' = g)
      (fun _ => Treads run node 0) := treads_graphOf
  refine hgraph.run_bind_congr ⟨h, hfinds⟩ fun g' p w hw => ?_
  obtain ⟨htreads, rfl⟩ := hw
  have hbound := ranks.lt_size node hnode
  exact run_walk_eq ranks forks (by omega) (by omega) hnode (by omega) htreads

theorem strides_conclude (result : Except Halt Unit) (p : Progress) :
    Leads (Stride env g run) (Located run node) (conclude env run result p)
      (fun o w => Located run node w ∧ o.steps = p.outcome.steps) (Located run node) := by
  refine leads_conclude_of result p (fun error => ?_) (fun w hw => ⟨hw, rfl⟩) fun o => ?_
  · exact (strides_failRun error p.outcome).post fun o w hw => ⟨hw.1, hw.2.1⟩
  · exact .assume (fun _ hw => hw.2) fun hsteps => strides_stateOf.conseq (fun _ hw => hw.1)
      (fun _ _ hw => ⟨hw.1, hsteps⟩) fun _ hw => hw

/-- An advance of a run on a node of its graph carries it along the graph, and makes no more steps
than the graph has nodes. -/
theorem strides_walkRun {rank : String → Nat} (ranks : g.Ranks rank) (forks : g.Forks)
    (hnode : g.HasNode run.node) (resuming : Bool) :
    Leads (Stride env g run) (fun w => Located run run.node w ∧ Finds run g w)
      (walkRun env resuming run) (fun o _ => o.steps ≤ g.size) fun _ => True := by
  rintro w ⟨hlocated, hfinds⟩
  have hwalking : Walk.Leads (Stride env g run) _ (walking env run) _ _ :=
    strides_walking ranks forks hnode
  obtain ⟨hpath, hend⟩ := hwalking ⟨run.node, resuming, { run := run.id }⟩ w
    ⟨⟨hlocated, rfl, rfl⟩, hfinds⟩
  rw [run_walkRun]
  rcases hrun : (walking env run).run (⟨run.node, resuming, { run := run.id }⟩, w)
    with ⟨result, p, after⟩
  rw [hrun] at hpath hend
  have hwithin : Within g run p after := by
    cases result <;> exact hend
  have hconclude : Leads (Stride env g run) (Located run p.node) (conclude env run result p)
      (fun o _ => o.steps ≤ g.size) fun _ => True :=
    (strides_conclude result p).conseq (fun _ hw => hw)
      (fun o w hw => hw.2.symm ▸ hwithin.steps_le) fun _ _ => trivial
  obtain ⟨hpath', hend'⟩ := hconclude after hwithin.located
  exact ⟨hpath.trans hpath', hend'⟩

end Engine

end CrmAutomation
