import CrmAutomation.Proofs.Engine.Requests
import CrmAutomation.Proofs.Engine.Strides

/-!
# Where runs can get to

A run that is on a node of a graph that may be published never leaves the graph, whatever is done
with it and with others, wherever this is interrupted and whatever fails. The databases that there
are meanwhile have the run on a node each (`Database.Places`), and from one to the next it is
carried along the graph (`Journeys`). This is kept by the advances of the run itself, which go by
strides, and by all others, which have no business with it (`Engine.serves_journeys`). So it holds
throughout a history (`keep_journeys`), and the main result `performAll_journeys` adds what this
means for the next advance: its steps are no more than the nodes, and no bound on them is reached.
-/

namespace CrmAutomation

variable {σ : Type}

/-! ## Others -/

/-- Sound worlds are kept by deeds that record no attempt and keep no graph. -/
theorem Deed.kept {env : Environment σ} {remit : Remit} {w w' : World σ}
    {G : String → Graph → Prop} {ds : List Definition} (h : Deed env remit w w')
    (unrecorded : ¬remit.calls .record) (unparsed : ∀ id, ¬remit.graphs id) (hw : Kept G ds w) :
    Kept G ds w' := by
  obtain ⟨⟨ids, attempts, stored, cached⟩, hdefinitions⟩ := hw
  refine ⟨⟨h.distinct ids, ?_, h.definitions_eq ▸ stored, ?_⟩, h.definitions_eq.trans hdefinitions⟩
  · exact h.records_eq unrecorded ▸ attempts
  · cases h with
    | remember id g permitted => exact absurd permitted (unparsed id)
    | tick | name | draw | wait | interrupt | serve | turn | command | create | record =>
      exact cached

/-- The database has the run on a node of the graph. -/
structure Database.Places (g : Graph) (run : Run) (d : Database) : Prop where
  distinct : (d.runs.map (·.id)).Nodup
  placed : ∃ r ∈ d.runs, r.id = run.id ∧ r.definition = run.definition ∧ g.HasNode r.node

namespace Database.Places

variable {g : Graph} {run r : Run} {d d' : Database}

theorem of_mem (distinct : (d.runs.map (·.id)).Nodup) (hr : run ∈ d.runs)
    (hnode : g.HasNode run.node) : d.Places g run :=
  ⟨distinct, run, hr, rfl, rfl, hnode⟩

/-- What is said of the row of the run. -/
theorem row (h : d.Places g run) (hr : r ∈ d.runs) (hid : r.id = run.id) :
    r.definition = run.definition ∧ g.HasNode r.node := by
  obtain ⟨o, ho, hoid, hos⟩ := h.placed
  rwa [List.inj_on_of_nodup_map h.distinct hr ho (hid.trans hoid.symm)]

/-- The run is found, on a node that is found. -/
theorem exists_node (h : d.Places g run) :
    ∃ r n, d.run? run.id = some r ∧ g.node? r.node = some n := by
  obtain ⟨r, hr, hid, -, hnode⟩ := h.placed
  obtain ⟨n, hn⟩ := Graph.exists_node?_of_hasNode hnode
  exact ⟨r, n, hid ▸ find?_key h.distinct hr, hn⟩

/-- A run that is carried along the graph stays on it. -/
theorem carried (h : d.Places g run) (hcarries : d.Carries g run.id d')
    (distinct : (d'.runs.map (·.id)).Nodup) (hkept : ∀ r ∈ d.runs, ∃ r' ∈ d'.runs, r'.id = r.id) :
    d'.Places g run := by
  obtain ⟨r, hr, hid, hdefinition, hnode⟩ := h.placed
  obtain ⟨r', hr', hid'⟩ := hkept r hr
  have hmove := hcarries r hr r' hr' hid (hid'.trans hid)
  refine ⟨distinct, r', hr', hid'.trans hid, hmove.definition_eq.trans hdefinition, ?_⟩
  rcases hmove.moved with hstays | hnext
  · exact hstays ▸ hnode
  · exact Graph.hasNode_of_next hnext

end Database.Places

/-! ## Journeys -/

/-- Throughout the history the run is on a node of the graph, and is carried along it. -/
structure Journeys (g : Graph) (run : Run) (w : World (σ × List Sighting)) : Prop where
  placed : ∀ d ∈ w.trace, d.Places g run
  carried : w.trace.IsChain (Database.Carries g run.id)

namespace Journeys

variable {env : Environment σ} {remit : Remit} {g : Graph} {run r : Run}
  {w w' : World (σ × List Sighting)}

theorem places (h : Journeys g run w) : w.db.Places g run := h.placed _ w.db_mem_trace

theorem congr (h : Journeys g run w) (hdb : w'.db = w.db) (hhost : w'.host = w.host) :
    Journeys g run w' := by
  have htrace := World.trace_congr hdb hhost
  exact ⟨htrace ▸ h.placed, htrace ▸ h.carried⟩

/-- The row of the run makes the same journeys. -/
theorem of_row (h : Journeys g r w) (hid : r.id = run.id)
    (hdefinition : r.definition = run.definition) :
    Journeys g run w := by
  refine ⟨fun d hd => ?_, hid ▸ h.carried⟩
  obtain ⟨distinct, o, ho, hoid, hodefinition, hnode⟩ := h.placed d hd
  exact ⟨distinct, o, ho, hoid.trans hid, hodefinition.trans hdefinition, hnode⟩

/-- A deed that carries the run along the graph is one more piece of its journey. -/
theorem deed (h : Journeys g run w) (hdeed : Deed env.observed remit w w')
    (hcarries : w.db.Carries g run.id w'.db) : Journeys g run w' := by
  rcases hdeed.trace with ⟨htrace, -⟩ | htrace
  · exact ⟨htrace ▸ h.placed, htrace ▸ h.carried⟩
  · have hplaces : w'.db.Places g run :=
      h.places.carried hcarries (hdeed.distinct h.places.distinct) fun _ hr =>
        (hdeed.exists_after hr).imp fun _ h => ⟨h.1, h.2.1⟩
    refine ⟨fun d hd => ?_, ?_⟩ <;> rw [htrace] at *
    · rcases List.mem_append.1 hd with hd | hd
      · exact h.placed d hd
      · exact List.mem_singleton.1 hd ▸ hplaces
    · refine List.isChain_append.2 ⟨h.carried, List.isChain_singleton _, fun d hd d' hd' => ?_⟩
      obtain rfl : w.db = d := by simpa [World.trace] using hd
      obtain rfl : w'.db = d' := by simpa using hd'
      exact hcarries

/-- A deed that has no business with the run leaves it where it is. -/
theorem spared (h : Journeys g run w) (hdeed : Deed env.observed remit w w')
    (spares : ∀ c, remit.orders c → c.Spares run.id) : Journeys g run w' :=
  h.deed hdeed fun _ hr _ hr' hid hid' =>
    (hdeed.lingers spares h.places.distinct hr hid hr' hid').carries g

/-- An advance finds the run where the database has it. -/
theorem located (h : Journeys g run w) (hr : r ∈ w.db.runs) : Located r r.node w :=
  ⟨h.places.distinct, r, hr, rfl, rfl, rfl⟩

end Journeys

/-! ## Whatever is done -/

theorem RunCommand.spares_of_progresses {c : RunCommand} {id other : String} (hne : other ≠ id)
    (h : Remit.Progresses other c) : c.Spares id := by
  cases c with
  | moveTo | suspend | complete =>
    rintro rfl
    exact hne h.symm
  | create | fail | cancel | claimSuspended | release | claimStale => trivial

theorem RunCommand.spares_of_claims {c : RunCommand} (id : String) (h : Remit.Claims c) :
    c.Spares id := by
  cases c with
  | moveTo | suspend | complete => exact h.elim
  | create | fail | cancel | claimSuspended | release | claimStale => trivial

/-- Runs may be begun, and nothing else be done with them or with graphs. -/
def Remit.creating : Remit := ⟨(· = .create), fun c => c.isCreate, fun _ => False⟩

theorem RunCommand.spares_of_isCreate {c : RunCommand} (id : String) (h : c.isCreate) :
    c.Spares id := by
  cases c with
  | moveTo | suspend | complete => cases h
  | create | fail | cancel | claimSuspended | release | claimStale => trivial

/-- The graph of the run, and that it may be published. -/
structure Follows (G : String → Graph → Prop) (g : Graph) (rank : String → Nat) (run : Run) :
    Prop where
  graph_eq : ∀ g', G run.definition g' → g' = g
  ranks : g.Ranks rank
  forks : g.Forks

namespace Engine

variable {env : Environment σ} {G : String → Graph → Prop} {ds : List Definition} {g : Graph}
  {rank : String → Nat} {run : Run} {α : Type}

/-- What goes by deeds that have no business with the run lets it go on. -/
theorem Does.stays_journeys {remit : Remit} {x : Engine (σ × List Sighting) α}
    (hx : Does env.observed remit x) (spares : ∀ c, remit.orders c → c.Spares run.id) :
    Stays Any (Journeys g run) x :=
  (hx.stays fun _ _ hdeed hw => hw.spared hdeed spares).steps fun _ _ _ => trivial

/-- The world stays sound as well where no attempt is recorded and no graph kept. -/
theorem Does.stays_kept_journeys {remit : Remit} {x : Engine (σ × List Sighting) α}
    (hx : Does env.observed remit x) (spares : ∀ c, remit.orders c → c.Spares run.id)
    (unrecorded : ¬remit.calls .record) (unparsed : ∀ id, ¬remit.graphs id) :
    Stays Any (fun w => Kept G ds w ∧ Journeys g run w) x :=
  (hx.stays fun _ _ hdeed hw => ⟨hdeed.kept unrecorded unparsed hw.1,
    hw.2.spared hdeed spares⟩).steps fun _ _ _ => trivial

/-- The run itself is carried along the graph by an advance. -/
theorem leads_walkRun_own {r : Run} (follows : Follows G g rank run) (hid : r.id = run.id)
    (resuming : Bool) :
    Leads Any (fun w => (Kept G ds w ∧ Journeys g run w) ∧ r ∈ w.db.runs)
      (walkRun env.observed resuming r) (fun o w => Journeys g run w ∧ o.steps ≤ g.size)
      (Journeys g run) := by
  refine .assume (p := r.definition = run.definition ∧ g.HasNode r.node)
    (fun w hw => hw.1.2.places.row hw.2 hid) fun ⟨hdefinition, hnode⟩ => ?_
  have hstrides : Leads (Stride env.observed g r) _ (walkRun env.observed resuming r) _ _ :=
    strides_walkRun follows.ranks follows.forks hnode resuming
  refine ((hstrides.keep (I := Journeys g r) fun _ _ hstride hw =>
    hw.deed hstride.deed hstride.carries).conseq (fun w hw => ?_)
    (fun o w hw => ⟨hw.1.of_row hid hdefinition, hw.2⟩)
    fun w hw => hw.1.of_row hid hdefinition).steps fun _ _ _ => trivial
  obtain ⟨⟨hkept, hjourneys⟩, hr⟩ := hw
  exact ⟨hjourneys.of_row hid.symm hdefinition.symm, hjourneys.located hr, fun g' hg' =>
    follows.graph_eq g' (hdefinition ▸ hkept.1.graphFor? hg')⟩

/-- An advance of a stored run keeps the world sound. -/
theorem leads_walkRun_kept {σ : Type} {env : Environment σ} (run : Run) (resuming : Bool) :
    Leads Any (fun w => Kept G ds w ∧ run ∈ w.db.runs) (walkRun env resuming run)
      (fun _ => Kept G ds) (Kept G ds) := by
  have hwalk : Leads (Step env G .free) _ (walkRun env resuming run) _ _ :=
    leads_walkRun run resuming fun _ => trivial
  exact ((hwalk.keep fun _ _ => kept_of_step).conseq (fun w hw => ⟨hw.1, hw.1.1.ids,
    ⟨run, hw.2, rfl, rfl, rfl⟩, fun g' hg' => hw.1.1.graphFor? hg'⟩) (fun _ _ hw => hw.1)
    fun _ hw => hw.1).steps fun _ _ _ => trivial

/-- Whichever run is advanced, the run goes on along its graph. -/
theorem leads_walkRun_any {r : Run} (follows : Follows G g rank run) (resuming : Bool) :
    Leads Any (fun w => (Kept G ds w ∧ Journeys g run w) ∧ r ∈ w.db.runs)
      (walkRun env.observed resuming r)
      (fun o w => (Kept G ds w ∧ Journeys g run w) ∧ (r.id = run.id → o.steps ≤ g.size))
      (fun w => Kept G ds w ∧ Journeys g run w) := by
  have hjourneys : Leads Any (fun w => (Kept G ds w ∧ Journeys g run w) ∧ r ∈ w.db.runs)
      (walkRun env.observed resuming r)
      (fun o w => Journeys g run w ∧ (r.id = run.id → o.steps ≤ g.size)) (Journeys g run) := by
    by_cases hid : r.id = run.id
    · exact (leads_walkRun_own follows hid resuming).post fun o w hw => ⟨hw.1, fun _ => hw.2⟩
    · exact ((does_walkRun r resuming).stays_journeys fun c =>
        RunCommand.spares_of_progresses hid).conseq (fun _ hw => hw.1.2)
        (fun _ _ hw => ⟨hw, fun h => absurd h hid⟩) fun _ hw => hw
  exact ((leads_walkRun_kept r resuming).and hjourneys).conseq (fun w hw => ⟨⟨hw.1.1, hw.2⟩, hw⟩)
    (fun o w hw => ⟨⟨hw.1, hw.2.1⟩, hw.2.2⟩) fun w hw => hw

/-- Whatever is done, the run goes on along its graph. -/
theorem serves_journeys (follows : Follows G g rank run) :
    Serves env.observed Any (fun w => Kept G ds w ∧ Journeys g run w) where
  claiming hx _ := hx.stays_kept_journeys (fun _ => RunCommand.spares_of_claims run.id)
    (fun h => h rfl) fun _ => id
  walking resuming r := (leads_walkRun_any follows resuming).post fun _ _ hw => hw.1
  matching e _ := by
    have hkept : Goes env.observed G .free ds (matching env.observed e) := goes_matching e
    have hdoes : Does env.observed (.beginning fun _ => True) (matching env.observed e) :=
      does_matching e trivial
    refine (Leads.steps hkept fun _ _ _ => trivial).and (hdoes.stays_journeys fun c hc => ?_)
    cases c with
    | create => trivial
    | moveTo | suspend | complete | fail | cancel | claimSuspended | release | claimStale =>
      exact hc.elim

/-- An execution of the run makes no more steps than its graph has nodes, whatever becomes of the
events that it causes. -/
theorem leads_runFrom_steps {route : List Event → Engine (σ × List Sighting) Unit}
    (follows : Follows G g rank run) (resuming : Bool) :
    Leads Any (fun w => Kept G ds w ∧ Journeys g run w)
      (runFrom env.observed route resuming run.id) (fun o _ => o.steps ≤ g.size)
      fun _ => True := by
  have serves : Serves env.observed Any (fun w => Kept G ds w ∧ Journeys g run w) :=
    serves_journeys follows
  have hcall : ∀ call, call ≠ .record →
      Stays Any (fun w => Kept G ds w ∧ Journeys g run w) (interrupt env.observed call) :=
    fun call hcall => serves.claiming (does_interrupt call hcall) (silent_interrupt call)
  unfold runFrom
  refine .bind ((hcall _ (by cases resuming <;> simp)).fails fun _ _ => trivial) fun _ => ?_
  refine .bind ((leads_query (hcall .getRun nofun) _).fails fun _ _ => trivial) fun found => ?_
  split
  · exact .pure _ fun _ _ => Nat.zero_le _
  · rename_i r
    refine .assume (p := r.id = run.id)
      (fun w hw => by simpa using List.find?_some hw.2.symm) fun hid => ?_
    dsimp only
    split
    · exact .pure _ fun _ _ => Nat.zero_le _
    · refine .bind (B := fun o _ => o.steps ≤ g.size)
        ((leads_walkRun_any follows resuming).conseq
          (fun w hw => ⟨hw.1, List.mem_of_find?_eq_some hw.2.symm⟩) (fun o w hw => hw.2 hid)
          fun _ _ => trivial) fun o => .assume (fun _ hw => hw) fun hsteps => ?_
      split
      · exact .bind (B := fun _ _ => True) ((Leads.any _).conseq (fun _ _ => trivial)
          (fun _ _ _ => trivial) fun _ _ => trivial) fun _ => .pure _ fun _ _ => hsteps
      · exact .pure _ fun _ _ => hsteps

end Engine

/-! ## Histories -/

section Histories

variable {env : Environment σ} {G : String → Graph → Prop} {ds : List Definition} {g : Graph}
  {rank : String → Nat} {run : Run} {w : World (σ × List Sighting)}

theorem Operation.keep_journeys (follows : Follows G g rank run) (o : Operation)
    (hw : Kept G ds w ∧ Journeys g run w) :
    Kept G ds (o.perform env.observed w) ∧ Journeys g run (o.perform env.observed w) := by
  have serves : Engine.Serves env.observed Engine.Any (fun w => Kept G ds w ∧ Journeys g run w) :=
    Engine.serves_journeys follows
  refine o.keep_of_serves (I := fun w => Kept G ds w ∧ Journeys g run w) serves ?_
    (fun time => ⟨hw.1.rest time, hw.2.congr rfl rfl⟩) ⟨hw.1.restart, hw.2.congr rfl rfl⟩ hw
  rintro definition contact payload rfl
  simp only [perform]
  split
  · rename_i d hd
    have hgraph : Engine.Leads (Step env.observed G .free) _ (Engine.usableGraph? d) _ _ :=
      Engine.leads_usableGraph (hw.1.2 ▸ List.mem_of_find?_eq_some hd)
    have hdeeds : Engine.Does env.observed (Remit.reading fun _ => True)
        (Engine.usableGraph? d) := Engine.does_usableGraph d trivial
    refine (Engine.stays_iff.1 (serves.startManually
      (((hgraph.steps fun _ _ _ => trivial).and (hdeeds.stays_journeys fun _ => False.elim)).conseq
        (fun _ hw => hw) (fun _ _ hw => ⟨hw.1.1, hw.2⟩) fun _ hw => hw.1.elim)
      (fun contact node event => ?_) contact payload) w hw).2
    have hcreate : Engine.Does env.observed .creating
        (Engine.createRun env.observed d contact node event 0) :=
      Engine.does_createRun d contact node event 0 rfl fun _ => rfl
    have hunrecorded : ¬Remit.creating.calls .record := by
      rintro ⟨⟩
    exact hcreate.stays_kept_journeys (fun _ => RunCommand.spares_of_isCreate run.id) hunrecorded
      fun _ => id
  · exact hw

theorem keep_journeys (follows : Follows G g rank run) (ops : List Operation)
    (hw : Kept G ds w ∧ Journeys g run w) :
    Kept G ds (performAll env.observed w ops) ∧ Journeys g run (performAll env.observed w ops) :=
  keep_performAll_of (I := fun w => Kept G ds w ∧ Journeys g run w)
    (fun o _ => o.keep_journeys follows) ops hw

/-! ## Graphs that were accepted -/

/-- The run keeps to its graph. Throughout the history it is found on a node that is found, and goes
along the edges, being completed only off the conditions. From here on no execution of it makes
more steps than there are nodes, and none is stopped by a bound on them. -/
structure KeepsTo (env : Environment σ) (g : Graph) (run : Run) (w : World (σ × List Sighting)) :
    Prop where
  found : ∀ d ∈ w.trace, ∃ r n, d.run? run.id = some r ∧ g.node? r.node = some n
  carried : w.trace.IsChain (Database.Carries g run.id)
  advance_le : ∀ o w', (Engine.advance env.observed run.id).run w = (.ok o, w') → o.steps ≤ g.size
  resume_le : ∀ o w', (Engine.resume env.observed run.id).run w = (.ok o, w') → o.steps ≤ g.size
  walking_le : ∀ r ∈ w.db.runs, r.id = run.id → ∀ resuming,
    ((Engine.walking env.observed r).run
      (⟨r.node, resuming, { run := r.id }⟩, w)).2.1.outcome.steps ≤ g.size
  unbounded : ∀ r ∈ w.db.runs, r.id = run.id → ∀ resuming limit, (∀ g : Graph, g.size ≤ limit g) →
    (Engine.walkingUpTo env.observed r limit).run (⟨r.node, resuming, { run := r.id }⟩, w) =
      (Engine.walking env.observed r).run (⟨r.node, resuming, { run := r.id }⟩, w)

theorem Journeys.keepsTo (hw : Kept G ds w ∧ Journeys g run w) (follows : Follows G g rank run) :
    KeepsTo env g run w := by
  have start : ∀ r ∈ w.db.runs, r.id = run.id → ∀ resuming, g.HasNode r.node ∧
      Treads r r.node 0 ⟨r.node, resuming, { run := r.id }⟩ w ∧ Engine.Finds r g w := by
    intro r hr hid resuming
    obtain ⟨hdefinition, hnode⟩ := hw.2.places.row hr hid
    exact ⟨hnode, ⟨hw.2.located hr, rfl, rfl⟩, fun g' hg' =>
      follows.graph_eq g' (hdefinition ▸ hw.1.1.graphFor? hg')⟩
  have steps : ∀ resuming o w', (Engine.runFrom env.observed (Engine.routeFollowUps env.observed)
      resuming run.id).run w = (.ok o, w') → o.steps ≤ g.size := by
    intro resuming o w' hrun
    obtain ⟨-, hend⟩ := Engine.leads_runFrom_steps follows resuming w hw
    rw [hrun] at hend
    exact hend
  refine ⟨fun d hd => (hw.2.placed d hd).exists_node, hw.2.carried, steps false, steps true, ?_, ?_⟩
  · intro r hr hid resuming
    obtain ⟨hnode, htreads, hfinds⟩ := start r hr hid resuming
    have hwalking : Walk.Leads (Stride env.observed g r) _ (Engine.walking env.observed r) _ _ :=
      Engine.strides_walking follows.ranks follows.forks hnode
    obtain ⟨-, hend⟩ := hwalking _ w ⟨htreads, hfinds⟩
    split at hend <;> exact hend.steps_le
  · intro r hr hid resuming limit hlimit
    obtain ⟨hnode, htreads, hfinds⟩ := start r hr hid resuming
    exact Engine.run_walkingUpTo_eq follows.ranks follows.forks hnode (hlimit g) htreads hfinds

/-- A run that is on a node of a graph that was accepted keeps to the graph, whatever a worker does,
whatever fails and wherever it is interrupted. No condition of the graph can fail for an operator
that is not known, and either branch of it leads to a node. -/
theorem performAll_keepsTo {env : Environment σ} {w : World (σ × List Sighting)} {d : Definition}
    {g : Graph} {run : Run} (sound : Sound w.db.HasGraph w) (unseen : w.sightings = [])
    (ids : (w.db.definitions.map (·.id)).Nodup) (hd : d ∈ w.db.definitions)
    (accepted : (checkStructure d.graph).isOk) (parsed : Graph.ofValue d.graph = .ok g)
    (hrun : run ∈ w.db.runs) (hdefinition : run.definition = d.id)
    (hnode : g.HasNode run.node) (ops : List Operation) :
    (∀ n ∈ g.nodes, ∀ c, n.config = .condition c →
      (∀ contact operator, c.holds contact ≠ .error (.unknownOperator operator)) ∧
      ∀ result, ∃ next, g.nextNodeId? n.id (.ofResult result) = some next ∧ g.HasNode next) ∧
    KeepsTo env g run (performAll env.observed w ops) := by
  obtain ⟨g', hg'⟩ := exists_of_isOk_checkStructure accepted
  obtain ⟨hparsed, publishable⟩ := checkStructure_eq_iff.1 hg'
  obtain rfl : g = g' := by simpa [parsed] using hparsed
  have wf := Graph.wellFormed_of_ofValue parsed
  obtain ⟨rank, ranks⟩ := publishable.exists_ranks wf
  have forks := publishable.forks wf
  refine ⟨fun n hn c hc => ⟨?_, fun result => ?_⟩, ?_⟩
  · have hcomplete : n.config.Complete := publishable.complete n hn
    rw [hc] at hcomplete
    exact hcomplete.holds_ne_unknownOperator
  · obtain ⟨next, hnext⟩ := forks n hn (by simp [Node.type, hc, NodeConfig.type]) result
    exact ⟨next, hnext, Graph.hasNode_of_next ⟨_, hnext⟩⟩
  · have follows : Follows w.db.HasGraph g rank run := by
      refine ⟨fun g' hg' => ?_, ranks, forks⟩
      rw [hdefinition, Database.hasGraph_iff ids hd, Engine.parse, parsed] at hg'
      exact (Except.ok.inj hg').symm
    have htrace : w.trace = [w.db] := by simp [World.trace, unseen]
    have hstart : Journeys g run w := by
      constructor <;> rw [htrace]
      · simpa using Database.Places.of_mem sound.ids hrun hnode
      · exact List.isChain_singleton _
    exact Journeys.keepsTo (keep_journeys follows ops ⟨⟨sound, rfl⟩, hstart⟩) follows

end Histories

/-- Contacts with an address of the house get a mail, and the others a tag. -/
def sortingGraph : Graph where
  nodes := [⟨"start", .trigger "contact_created" none none, ""⟩,
    ⟨"check", .condition ⟨"email", "contains", .str "example"⟩, ""⟩,
    ⟨"mail", .sendEmail "t-1" none, ""⟩, ⟨"tag", .addTag "g-1", ""⟩]
  edges := [⟨0, 1, .default⟩, ⟨1, 2, .whenTrue⟩, ⟨1, 3, .whenFalse⟩]

/-- The definition with this graph. -/
def sorting : Definition :=
  { (default : Definition) with
    id := "sorting-1"
    workflow := "sorting"
    version := 1
    graph := .obj [
      ("nodes", .list [
        .obj [("id", .str "start"), ("type", .str "trigger"),
          ("data", .obj [("triggerType", .str "contact_created")])],
        .obj [("id", .str "check"), ("type", .str "condition"),
          ("data", .obj [("config", .obj [("field", .str "email"), ("operator", .str "contains"),
            ("value", .str "example")])])],
        .obj [("id", .str "mail"), ("type", .str "send_email"),
          ("data", .obj [("config", .obj [("template_id", .str "t-1")])])],
        .obj [("id", .str "tag"), ("type", .str "add_tag"),
          ("data", .obj [("config", .obj [("tag_id", .str "g-1")])])]]),
      ("edges", .list [.obj [("source", .str "start"), ("target", .str "check")],
        .obj [("source", .str "check"), ("target", .str "mail"), ("sourceHandle", .str "true")],
        .obj [("source", .str "check"), ("target", .str "tag"), ("sourceHandle", .str "false")]])] }

/-- A run that rests on the condition. -/
def sorted : Run :=
  { (default : Run) with
    id := "run-1"
    definition := "sorting-1"
    contact := "c-1"
    node := "check"
    state := .running }

/-- The run is in the database, and will fail to be ended twice. -/
def midway : World (Nat × List Sighting) :=
  { opening with db := { definitions := [sorting], runs := [sorted], records := [] } }

theorem sound_midway : Sound midway.db.HasGraph midway := by
  refine ⟨by decide, by simp [midway], fun d hd g hg => ?_, by simp [midway, opening]⟩
  exact (Database.hasGraph_iff (by decide) hd).2 hg

/-- A run that gets stuck behind a condition has taken its branch, and is executed again. -/
theorem performAll_keepsTo_of_midway :
    Sound midway.db.HasGraph midway ∧ midway.sightings = [] ∧
    (midway.db.definitions.map (·.id)).Nodup ∧ sorting ∈ midway.db.definitions ∧
    (checkStructure sorting.graph).isOk ∧ Graph.ofValue sorting.graph = .ok sortingGraph ∧
    sorted ∈ midway.db.runs ∧ sorted.definition = sorting.id ∧ sortingGraph.HasNode sorted.node ∧
    let w := performAll troubled.observed midway [.advance "run-1", .restart, .resume "run-1"]
    KeepsTo troubled sortingGraph sorted w ∧
    (w.trace.map fun d => d.runs.map fun r => (r.node, r.state)).destutter (· ≠ ·) =
      [[("check", .running)], [("mail", .running)], [("mail", .completed)]] := by
  have ids : (midway.db.definitions.map (·.id)).Nodup := by decide
  have hd : sorting ∈ midway.db.definitions := List.mem_singleton.2 rfl
  have accepted : (checkStructure sorting.graph).isOk := by decide +kernel
  have parsed : Graph.ofValue sorting.graph = .ok sortingGraph := rfl
  have hrun : sorted ∈ midway.db.runs := List.mem_singleton.2 rfl
  have hnode : sortingGraph.HasNode sorted.node := ⟨_, .tail _ (.head _), rfl⟩
  exact ⟨sound_midway, rfl, ids, hd, accepted, parsed, hrun, rfl, hnode,
    (performAll_keepsTo sound_midway rfl ids hd accepted parsed hrun rfl hnode _).2,
    by decide +kernel⟩

end CrmAutomation
