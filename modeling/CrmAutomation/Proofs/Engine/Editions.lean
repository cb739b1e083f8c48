import CrmAutomation.Proofs.Engine.Editing
import CrmAutomation.Proofs.Engine.Journeys

/-!
# Runs keep to their edition

The graph that a version has when it is published is its edition. While requests lead from one
world to another, the editions are logged (`World.Issued`), and whatever is drafted, published and
archived later, each version that has left draft keeps its edition.

What a request does is told piece by piece (`Works`): a node of a graph is executed for the run that
stands on it, or something is done that executes none. A run is only ever walked along the graph
that is found for its definition, wherever this is found (`Engine.works_walkRun`), and what is found
is the graph of the edition, since no graph of a draft was ever parsed. So every node that is
executed is one of the edition, and so is every graph that was parsed (`runs_keep_edition`).
-/

namespace CrmAutomation

variable {σ α β : Type}

/-! ## Work -/

/-- All but what it takes to execute a node: to record, to move a run, to suspend or complete it. -/
def Remit.idling : Remit where
  calls call := call ≠ .record
  orders
    | .moveTo .. | .suspend .. | .complete .. => False
    | _ => True
  graphs _ := True

theorem Remit.Within.refl (a : Remit) : a.Within a := ⟨fun _ => id, fun _ => id, fun _ => id⟩

theorem Remit.claiming_within_idling : claiming.Within idling := by
  refine ⟨fun _ h => h, fun c hc => ?_, fun _ _ => trivial⟩
  cases c with
  | moveTo | suspend | complete => exact hc.elim
  | create | fail | cancel | claimSuspended | release | claimStale => trivial

theorem Remit.creating_within_idling : creating.Within idling := by
  refine ⟨?_, fun c hc => ?_, fun _ _ => trivial⟩
  · rintro _ rfl
    exact nofun
  · cases c with
    | moveTo | suspend | complete => cases hc
    | create | fail | cancel | claimSuspended | release | claimStale => trivial

/-- A deed that executes no node and asks no service. -/
structure Idles (env : Environment σ) (w w' : World σ) : Prop where
  deed : Deed env .idling w w'
  calls_eq : w'.calls = w.calls

/-- A piece of work: a node is executed for the run that stands on it, of a graph that the run may
use, or nothing is executed. -/
inductive Works (env : Environment σ) (uses : Run → Graph → Prop) (w : World σ) :
    World σ → Prop where
  | idle {w' : World σ} (h : Idles env w w') : Works env uses w w'
  | execute (run : Run) (g : Graph) (node : Node) (p : Progress) (used : uses run g)
      (stands : Stands run p.node w) (found : g.node? p.node = some node) :
    Works env uses w ((Engine.executeNode env g run node p.resuming).run (p, w)).2.2
  | rest (time : Instant) : Works env uses w { w with clock := time }
  | restart : Works env uses w { w with graphs := [], turns := [] }

theorem Works.mono {env : Environment σ} {uses uses' : Run → Graph → Prop} {w w' : World σ}
    (h : ∀ run g, uses run g → uses' run g) (hw : Works env uses w w') :
    Works env uses' w w' := by
  cases hw with
  | idle hidle => exact .idle hidle
  | execute run g node p used stands found => exact .execute run g node p (h _ _ used) stands found
  | rest time => exact .rest time
  | restart => exact .restart

theorem Deed.calls_prefix {env : Environment σ} {remit : Remit} {w w' : World σ}
    (h : Deed env remit w w') : w.calls <+: w'.calls := by
  cases h with
  | serve call => exact List.prefix_append _ _
  | tick | name | draw | wait | interrupt | remember | turn | command | create | record =>
    exact List.prefix_rfl

theorem Path.calls_prefix {env : Environment σ} {remit : Remit} {w w' : World σ}
    (h : Path (Deed env remit) w w') : w.calls <+: w'.calls :=
  h.keep (I := fun v => w.calls <+: v.calls) (fun _ _ hdeed hv => hv.trans hdeed.calls_prefix)
    List.prefix_rfl

/-- On a path that asks nothing as a whole, nothing is asked. -/
theorem Path.idles {env : Environment σ} {remit : Remit} {w w' : World σ}
    (within : remit.Within .idling) (h : Path (Deed env remit) w w') (hcalls : w'.calls = w.calls) :
    Path (Idles env) w w' := by
  induction h with
  | refl => exact .refl
  | @tail v w' hpath hdeed ih =>
    have hsame : v.calls = w.calls :=
      ((hcalls ▸ hdeed.calls_prefix).eq_of_length_le (Path.calls_prefix hpath).length_le)
    exact .tail (ih hsame) ⟨hdeed.mono within, hcalls.trans hsame.symm⟩

namespace Engine

variable {env : Environment σ} {uses : Run → Graph → Prop} {remit : Remit} {I : World σ → Prop}
  {x : Engine σ α}

theorem Silent.calls_eq (hx : Silent x) (w : World σ) : (x.run w).2.calls = w.calls := by
  obtain ⟨_, hcalls, rfl⟩ := hx w
  rw [hcalls, List.append_nil]

/-- What executes no node and asks nothing is work that keeps what it keeps. -/
theorem Stays.works {S : World σ → World σ → Prop} (hI : Stays S I x) (hx : Does env remit x)
    (within : remit.Within .idling) (silent : Silent x) : Stays (Works env uses) I x := by
  refine stays_iff.2 fun w hw => ⟨?_, (stays_iff.1 hI w hw).2⟩
  exact Relation.ReflTransGen.mono (fun _ _ => .idle) _ _
    ((hx.path w).idles within (silent.calls_eq w))

theorem works_of_does (hx : Does env remit x) (within : remit.Within .idling) (silent : Silent x) :
    Stays (Works env uses) (fun _ => True) x :=
  Stays.works hx hx within silent

/-! ## Walks -/

section Walks

variable {G : String → Graph → Prop} {run : Run} {g : Graph}

/-- A walk is where the database has its run. -/
def Walking (run : Run) (p : Progress) (w : World σ) : Prop := ∃ k, Walks run k p w

theorem calm_walking (run : Run) (p : Progress) : Calm (Walking (σ := σ) run p) :=
  fun w w' h ⟨k, hw⟩ => ⟨k, calm_walks run k p w w' h hw⟩

theorem works_failRun (error : String) (o : Outcome) :
    Stays (Works env uses) (fun _ => True) (failRun env run.id error o) :=
  works_of_does (does_failRun_of error o (by nofun) (by nofun) trivial) (.refl .idling)
    (silent_failRun _ _ _)

/-- A walk that fails its run executes nothing. -/
theorem works_failWalk {A : Progress → World σ → Prop} (error : String) :
    Walk.Leads (Works env uses) A (failWalk env run.id error) (fun _ _ _ => True)
      fun _ _ _ => True := by
  refine .bind (B := fun _ _ _ => True) (.progress fun _ _ _ => trivial) fun p => ?_
  refine .bind (B := fun _ _ _ => True) (.engine (fun _ => works_failRun error p.outcome)
    fun _ _ _ _ => trivial) fun o => ?_
  exact .update fun _ _ _ => trivial

/-- The state of the run is read while the walk is where it is. -/
theorem works_stateOf :
    Walk.Leads (Works env uses) (Walking run) (Walk.engine (stateOf env run.id))
      (fun _ => Walking run) (fun _ _ _ => True) := by
  refine .engine (E := fun _ _ => True) (fun p => ?_) fun _ _ _ _ => trivial
  have hread : Leads (Step env (fun _ _ => True) .free) (Walking run p) (stateOf env run.id) _ _ :=
    leads_stateOf run.id (calm_walking run p) fun w ⟨_, hw⟩ => by
      obtain ⟨o, ho, hid, -⟩ := hw.stands
      exact ⟨o, ho, hid⟩
  have hidle : Stays (Works env uses) (fun _ => True) (stateOf env run.id) :=
    works_of_does (does_stateOf run.id (by nofun)) (.refl .idling) (silent_look _ _)
  exact (hidle.and hread).conseq (fun _ hw => ⟨trivial, hw⟩) (fun _ _ hw => hw.2.1)
    fun _ _ => trivial

theorem works_whileRunning {y : Walk σ Unit}
    (hy : Walk.Leads (Works env uses) (Walking run) y (fun _ _ _ => True) fun _ _ _ => True) :
    Walk.Leads (Works env uses) (Walking run) (whileRunning env run.id y) (fun _ _ _ => True)
      fun _ _ _ => True := by
  refine .bind works_stateOf fun state => ?_
  split
  · exact hy
  · exact .settle fun _ _ _ => trivial

/-- A node is executed for the run that stands on it. -/
theorem works_executeNode {node : Node} {q : Progress} (hg : G run.definition g) (used : uses run g)
    (hn : g.node? q.node = some node) :
    Walk.Leads (Works env uses) (fun p w => Walking run p w ∧ q = p)
      (executeNode env g run node q.resuming) (fun _ => Walking run) (fun _ _ _ => True) := by
  rintro p w ⟨⟨k, hwalks⟩, rfl⟩
  have hid : q.node = node.id := (Graph.node?_spec hn).2.symm
  have hexecute : Walk.Leads (Step env G .free) (Visits run k node)
      (executeNode env g run node q.resuming) _ _ :=
    leads_executeNode hg (hid ▸ hn) q.resuming fun _ => trivial
  obtain ⟨-, hend⟩ := hexecute q w ⟨hwalks, hid⟩
  refine ⟨.single (.execute run g node q used hwalks.stands hn), ?_⟩
  split at hend
  · exact ⟨k, hend⟩
  · trivial

theorem works_takeStep {further : Walk σ Unit} (hg : G run.definition g) (used : uses run g)
    (hfurther : Walk.Leads (Works env uses) (Walking run) further (fun _ _ _ => True)
      fun _ _ _ => True) :
    Walk.Leads (Works env uses) (Walking run) (takeStep env g run further) (fun _ _ _ => True)
      fun _ _ _ => True := by
  unfold takeStep
  refine .bind (B := fun _ => Walking run) (.update ?_) fun _ => ?_
  · rintro p w ⟨k, hdistinct, hstands, hsteps, htold⟩
    exact ⟨k + 1, hdistinct, hstands, Nat.succ_le_succ hsteps, htold⟩
  refine .bind (B := fun q p w => Walking run p w ∧ q = p) (.progress fun p w hw => ⟨hw, rfl⟩)
    fun q => ?_
  split
  · exact works_failWalk _
  · rename_i node hn
    refine .bind (works_executeNode hg used hn) fun _ => ?_
    refine .bind (B := fun _ => Walking run) (.update ?_) fun _ => ?_
    · rintro p w ⟨k, hdistinct, hstands, hsteps, htold⟩
      exact ⟨k, hdistinct, hstands, hsteps, htold⟩
    refine .bind (B := fun _ => Walking run) (.progress fun _ _ hw => hw) fun q => ?_
    split
    · exact hfurther
    · exact .pure _ fun _ _ _ => trivial

/-- Every node of a walk is one of its graph. -/
theorem works_walk (hg : G run.definition g) (used : uses run g) (n : Nat) :
    Walk.Leads (Works env uses) (Walking run) (walk env g run n) (fun _ _ _ => True)
      fun _ _ _ => True := by
  induction n with
  | zero => exact works_whileRunning (works_failWalk _)
  | succ n ih => exact works_whileRunning (works_takeStep hg used ih)

/-- The graph that is found for a definition is the one that it has. -/
theorem works_graphOf (p : Progress) :
    Leads (Works env uses)
      (fun w => Walking run p w ∧ ∀ g, w.graphFor? run.definition = some g → G run.definition g)
      (graphOf env run.definition) (fun g w => Walking run p w ∧ G run.definition g)
      fun _ => True := by
  have hidle : Stays (Works env uses) (fun _ => True) (graphOf env run.definition) :=
    works_of_does (does_graphOf run.definition (by nofun) trivial) (.refl .idling)
      (silent_graphOf _)
  have hfound : Leads (Step env G .free) _ (graphOf env run.definition) _ _ :=
    leads_graphOf (calm_walking run p) run.definition
  exact (hidle.and hfound).conseq (fun _ hw => ⟨trivial, hw⟩) (fun _ _ hw => hw.2)
    fun _ _ => trivial

theorem works_walking (hused : ∀ g, G run.definition g → uses run g) :
    Walk.Leads (Works env uses)
      (fun p w => Walking run p w ∧ ∀ g, w.graphFor? run.definition = some g → G run.definition g)
      (walking env run) (fun _ _ _ => True) fun _ _ _ => True := by
  refine .bind (B := fun g p w => Walking run p w ∧ G run.definition g)
    (.engine (fun p => works_graphOf p) fun _ _ _ _ => trivial) fun g => ?_
  refine .assume (fun _ _ hw => hw.2) fun hg => ?_
  exact (works_walk hg (hused g hg) _).pre fun _ _ hw => hw.1

/-- A stored run is walked along the graph that its definition has. -/
theorem works_walkRun {ds : List Definition} (hused : ∀ g, G run.definition g → uses run g)
    (resuming : Bool) :
    Leads (Works env uses) (fun w => Kept G ds w ∧ run ∈ w.db.runs) (walkRun env resuming run)
      (fun _ _ => True) fun _ => True := by
  rintro w ⟨hkept, hrun⟩
  have hwalking : Walk.Leads (Works env uses) _ (walking env run) _ _ := works_walking hused
  obtain ⟨hpath, -⟩ := hwalking ⟨run.node, resuming, { run := run.id }⟩ w
    ⟨⟨0, hkept.1.ids, ⟨run, hrun, rfl, rfl, rfl⟩, Nat.le_refl 0, by simp⟩,
      fun g hg => hkept.1.graphFor? hg⟩
  rw [run_walkRun]
  generalize (walking env run).run (⟨run.node, resuming, { run := run.id }⟩, w) = ended at *
  have hidle : Stays (Works env uses) (fun _ => True) (stateOf env run.id) :=
    works_of_does (does_stateOf run.id (by nofun)) (.refl .idling) (silent_look _ _)
  have hconclude : Stays (Works env uses) (fun _ => True)
      (conclude env run ended.1 ended.2.1) :=
    leads_conclude_of _ _ (fun _ => works_failRun _ _) (fun _ _ => trivial) fun _ => hidle
  obtain ⟨hpath', hend⟩ := hconclude ended.2.2 trivial
  exact ⟨hpath.trans hpath', hend⟩

end Walks

/-! ## Requests -/

section Serving

variable {G : String → Graph → Prop} {ds : List Definition}

/-- A run uses the graph of its definition, which has left draft. -/
def UsesReleased (G : String → Graph → Prop) (ds : List Definition) (run : Run) (g : Graph) :
    Prop :=
  Released ds run.definition ∧ G run.definition g

/-- Where a computation leads from a world, there is a path from that world. -/
theorem Leads.along {S : World σ → World σ → Prop} {A X : World σ → Prop} {B : α → World σ → Prop}
    (hx : Leads S A x B X) (w₀ : World σ) :
    Leads Any (fun w => Path S w₀ w ∧ A w) x (fun a w => Path S w₀ w ∧ B a w)
      fun w => Path S w₀ w ∧ X w := by
  rintro w ⟨hstart, hw⟩
  obtain ⟨hpath, hend⟩ := hx w hw
  refine ⟨.single trivial, ?_⟩
  split at hend
  · exact ⟨hstart.trans hpath, hend⟩
  · exact ⟨hstart.trans hpath, hend⟩

theorem Serves.along {S : World σ → World σ → Prop} (h : Serves env S I) (w₀ : World σ) :
    Serves env Any fun w => Path S w₀ w ∧ I w where
  claiming hx silent := (h.claiming hx silent).along w₀
  walking resuming run := ((h.walking resuming run).along w₀).pre fun _ hw =>
    ⟨hw.1.1, hw.1.2, hw.2⟩
  matching e hdepth := (h.matching e hdepth).along w₀

theorem silent_matching (e : Event) : Silent (matching env e) :=
  silent_inTurn _ _ (Silent.bind ((silent_look _ _).bind (fun _ => silent_withTriggers _) rfl)
    (fun _ => silent_startRuns e _ _) rfl)

variable (named : ∀ d : Definition, d.ReleasedIn ds → ':' ∉ d.id.toList)

include named

theorem leads_walkRun_uses (run : Run) (resuming : Bool) :
    Leads Any (fun w => Uses ds w ∧ run ∈ w.db.runs) (walkRun env resuming run)
      (fun _ => Uses ds) (Uses ds) :=
  ((serves_employs named fun _ => Definition.releasedIn_of_published).walking resuming run).steps
    fun _ _ _ => trivial

/-- Whatever is done with runs and events, the nodes that are executed are those of the graphs that
released definitions have. -/
theorem serves_works :
    Serves env (Works env (UsesReleased G ds)) fun w => Kept G ds w ∧ Uses ds w where
  claiming hx silent := by
    refine Stays.works (hx.stays fun _ _ hdeed hw => ?_) hx Remit.claiming_within_idling silent
    exact ⟨hdeed.kept (fun h => h rfl) (fun _ => id) hw.1,
      (hdeed.mono Remit.claiming_within_employing).employs named hw.2⟩
  walking resuming run := by
    refine .assume (p := Released ds run.definition)
      (fun w hw => (hw.1.2.runs run hw.2).names.released) fun released => ?_
    have hwalk : Leads (Works env (UsesReleased G ds)) (fun w => Kept G ds w ∧ run ∈ w.db.runs)
        (walkRun env resuming run) _ _ := works_walkRun (fun g hg => ⟨released, hg⟩) resuming
    exact (hwalk.and ((leads_walkRun_kept run resuming).and
      (leads_walkRun_uses named run resuming))).conseq
      (fun w hw => ⟨⟨hw.1.1, hw.2⟩, ⟨hw.1.1, hw.2⟩, hw.1.2, hw.2⟩) (fun _ _ hw => hw.2)
      fun _ hw => hw.2
  matching e _ := by
    have hkept : Goes env G .free ds (matching env e) := goes_matching e
    have huses : Stays (Deed env (.employing (Definition.ReleasedIn ds))) (Uses ds) (matching env e) :=
      stays_matching_employs named (fun _ => Definition.releasedIn_of_published) e
    exact Stays.works (hkept.and huses)
      (does_matching_of e (by nofun) (by nofun) (fun _ => trivial) fun _ _ _ => trivial)
      (.refl .idling) (silent_matching e)

/-- So it is where a run of a released definition is started by hand. -/
theorem works_startManually {d : Definition} (hd : d ∈ ds) (left : d.status ≠ .known .draft)
    (contact : String) (payload : Members) :
    Stays (Works env (UsesReleased G ds)) (fun w => Kept G ds w ∧ Uses ds w)
      (startManually env d contact payload) := by
  have released : Released ds d.id := ⟨d, hd, rfl, left⟩
  refine (serves_works named).startManually ?_ (fun contact node event => ?_) contact payload
  · have hkept : Leads (Step env G .free) (Kept G ds) (usableGraph? d) _ _ := leads_usableGraph hd
    have huses : Does env (.employing (Definition.ReleasedIn ds)) (usableGraph? d) :=
      does_usableGraph d released.names
    have hgraph : Stays (Step env G .free) (fun w => Kept G ds w ∧ Uses ds w) (usableGraph? d) :=
      (hkept.and (huses.stays_employs named)).conseq (fun _ hw => hw)
        (fun _ _ hw => ⟨hw.1.1, hw.2⟩) fun _ hw => hw.1.elim
    exact hgraph.works (does_usableGraph d trivial) (.refl .idling) (silent_usableGraph d)
  · have hcreate : Does env .creating (createRun env d contact node event 0) :=
      does_createRun d contact node event 0 rfl fun _ => rfl
    have hkept : Stays (Deed env .creating) (Kept G ds) (createRun env d contact node event 0) :=
      hcreate.stays fun _ _ hdeed => hdeed.kept (by rintro ⟨⟩) fun _ => id
    have huses : Does env (.employing (Definition.ReleasedIn ds))
        (createRun env d contact node event 0) :=
      does_createRun d contact node event 0 trivial fun _ => ⟨hd, left⟩
    exact Stays.works (hkept.and (huses.stays_employs named)) hcreate Remit.creating_within_idling
      (silent_createRun d contact node event 0)

end Serving

end Engine

/-- What is no edit is work on the graphs that released definitions have. -/
theorem Request.works {env : Environment σ} {w : World σ} (regular : Regular w) (q : Request)
    (rest : ¬q.IsEdit) (spared : q.SparesDrafts w) :
    Path (Works env (Engine.UsesReleased w.db.HasGraph w.db.definitions)) w (q.perform env w) := by
  have named := regular.named
  have hw : Kept w.db.HasGraph w.db.definitions w ∧ Uses w.db.definitions w :=
    ⟨regular.kept, regular.uses⟩
  have hstart : ∀ d ∈ w.db.definitions, d.status ≠ .known .draft → ∀ contact payload,
      Engine.Stays (Works env (Engine.UsesReleased w.db.HasGraph w.db.definitions))
        (fun w' => Kept w.db.HasGraph w.db.definitions w' ∧ Uses w.db.definitions w')
        (Engine.startManually env d contact payload) :=
    fun d hd left => Engine.works_startManually named hd left
  cases q with
  | create | save | publish | archive => exact absurd trivial rest
  | trigger workflow organization contact payload =>
    simp only [perform]
    split
    · rename_i d hd
      obtain ⟨hmem, -, -, hstatus⟩ := Database.published?_spec hd
      exact (Engine.stays_iff.1 (hstart d hmem (by simp [hstatus]) contact payload) w hw).1
    · exact .refl
  | operate o =>
    have hserves : Engine.Serves env
        (Works env (Engine.UsesReleased w.db.HasGraph w.db.definitions)) _ :=
      Engine.serves_works named
    refine (o.keep_of_serves (hserves.along w) ?_ (fun time => ?_) ?_ ⟨.refl, hw⟩).1
    · rintro id contact payload rfl
      simp only [Operation.perform]
      split
      · rename_i d hd
        have hmem : d ∈ w.db.definitions := List.mem_of_find?_eq_some hd
        have left := spared d hmem (by simpa using List.find?_some hd)
        exact Engine.stays_iff.1 (hstart d hmem left contact payload) w hw
      · exact ⟨.refl, hw⟩
    · exact ⟨.single (.rest time), hw.1.rest time, rfl, hw.2.2, hw.2.3, hw.2.4⟩
    · exact ⟨.single .restart, hw.1.restart, rfl, hw.2.2, hw.2.3, by simp⟩

/-! ## Editions -/

/-- The versions that were drafts before and are published after, each with the graph that it is
published with. -/
def Database.issued (before after : Database) : List (String × Value) :=
  (after.definitions.filter fun d => d.status == .known .published &&
    before.definitions.any fun o => o.id == d.id && o.status == .known .draft).map
      fun d => (d.id, d.graph)

/-- Requests lead to the world from one without tables in which no graph was parsed, each of them
served by a host that makes up names without a colon, and none starting a run of a draft. The
editions are the graphs that versions had when they were published. -/
inductive World.Issued : List (String × Value) → World σ → Prop where
  | empty {w : World σ} (tables : w.db = .empty) (unparsed : w.graphs = []) : Issued [] w
  | serve {editions : List (String × Value)} {w : World σ} (h : Issued editions w)
    (env : Environment σ) (named : ∀ id, env.host.NamesDefinition id → ':' ∉ id.toList)
    (q : Request) (spared : q.SparesDrafts w) :
    Issued (editions ++ w.db.issued (q.perform env w).db) (q.perform env w)

namespace World.Issued

variable {editions : List (String × Value)} {w : World σ}

theorem attained (h : World.Issued editions w) : w.Attained := by
  induction h with
  | empty tables unparsed => exact .empty tables unparsed
  | serve _ env named q spared ih => exact ih.serve env named q spared

theorem versioned (h : World.Issued editions w) : Versioned w.db.definitions :=
  h.attained.versioned

end World.Issued

namespace Database

variable {before after : Database} {d : Definition}

theorem mem_issued {e : String × Value} : e ∈ before.issued after ↔
    ∃ d ∈ after.definitions, d.status = .known .published ∧
      (∃ o ∈ before.definitions, o.id = d.id ∧ o.status = .known .draft) ∧ (d.id, d.graph) = e := by
  simp [issued, and_assoc]

/-- A row that has left draft had left it before, with the graph that it has, or it is published. -/
theorem issued_or_kept (h : Edits before.definitions after.definitions) (hd : d ∈ after.definitions)
    (left : d.status ≠ .known .draft) : (d.id, d.graph) ∈ before.issued after ∨
      ∃ o ∈ before.definitions, o.id = d.id ∧ o.status ≠ .known .draft ∧ o.graph = d.graph := by
  obtain ⟨o, ho, hbecomes⟩ := h.exists_before hd left
  cases hbecomes with
  | stay => exact .inr ⟨d, ho, rfl, left, rfl⟩
  | edit draft => exact absurd draft left
  | publish draft => exact .inl (mem_issued.2 ⟨_, hd, rfl, ⟨o, ho, rfl, draft⟩, rfl⟩)
  | archive published => exact .inr ⟨o, ho, rfl, by simp [published], rfl⟩

end Database

theorem Request.edits_perform {env : Environment σ} {w : World σ} (q : Request)
    (h : Versioned w.db.definitions) : Edits w.db.definitions (q.perform env w).db.definitions := by
  by_cases edit : q.IsEdit
  · exact q.edits edit h
  · rw [q.definitions_perform edit]
    exact .refl h

/-- The editions are the graphs of the versions that have left draft. -/
theorem World.Issued.mem_iff {editions : List (String × Value)} {w : World σ}
    (h : World.Issued editions w) {id : String} {raw : Value} : (id, raw) ∈ editions ↔
      ∃ d ∈ w.db.definitions, d.id = id ∧ d.status ≠ .known .draft ∧ d.graph = raw := by
  induction h generalizing id raw with
  | empty tables => simp [tables, Database.empty]
  | @serve editions w h env named q spared ih =>
    have hedits : Edits w.db.definitions (q.perform env w).db.definitions :=
      q.edits_perform h.versioned
    rw [List.mem_append, ih]
    constructor
    · rintro (⟨d, hd, rfl, left, rfl⟩ | hnew)
      · obtain ⟨d', hd', hlasts⟩ := hedits.exists_lasts hd left
        exact ⟨d', hd', hlasts.id_eq, hlasts.left left, hlasts.graph_eq⟩
      · obtain ⟨d, hd, hpublished, -, heq⟩ := Database.mem_issued.1 hnew
        cases heq
        exact ⟨d, hd, rfl, by simp [hpublished], rfl⟩
    · rintro ⟨d, hd, rfl, left, rfl⟩
      exact (Database.issued_or_kept hedits hd left).symm

/-- Whatever is created, edited, published and archived, and whatever events, starts by hand and
sweeps come in between: a version has one edition, which is the graph that is stored with it from
then on, and every graph that was parsed is that of the edition. Every run is one of a version that
was published. Whatever is requested next, it is either an edit, which executes no node, or every
node that it executes, for whichever run, is one of the edition of the run's version, executed in
the graph of that edition. -/
theorem runs_keep_edition {editions : List (String × Value)} {w : World σ}
    (issued : World.Issued editions w) :
    (∀ id raw raw', (id, raw) ∈ editions → (id, raw') ∈ editions → raw = raw') ∧
    (∀ p ∈ w.graphs, ∃ d, w.db.definition? p.1 = some d ∧ Graph.ofValue d.graph = .ok p.2 ∧
      (p.1, d.graph) ∈ editions) ∧
    (∀ r ∈ w.db.runs, ∃ raw, (r.definition, raw) ∈ editions) ∧
    ∀ (env : Environment σ) (q : Request), q.SparesDrafts w →
      (q.IsEdit → Path (Act env .asking) w (q.perform env w)) ∧
      (¬q.IsEdit → Path (Works env fun run g =>
        ∃ raw, (run.definition, raw) ∈ editions ∧ Graph.ofValue raw = .ok g) w
          (q.perform env w)) := by
  have regular := issued.attained.regular
  have ids := regular.catalogued.ids
  have hparsed : ∀ {raw g}, Engine.parse raw = .ok g → Graph.ofValue raw = .ok g := by
    intro raw g h
    unfold Engine.parse at h
    split at h
    · rename_i heq
      exact heq.trans (congrArg _ (Except.ok.inj h))
    · cases h
  have hgraph : ∀ id g, Released w.db.definitions id → w.db.HasGraph id g →
      ∃ d, w.db.definition? id = some d ∧ Graph.ofValue d.graph = .ok g ∧
        (id, d.graph) ∈ editions := by
    rintro _ g ⟨d, hd, rfl, left⟩ hg
    exact ⟨d, Database.find?_key ids hd, hparsed ((Database.hasGraph_iff ids hd).1 hg),
      issued.mem_iff.2 ⟨d, hd, rfl, left, rfl⟩⟩
  refine ⟨fun id raw raw' h h' => ?_, fun p hp => ?_, fun r hr => ?_, fun env q spared => ⟨?_, ?_⟩⟩
  · obtain ⟨d, hd, rfl, -, rfl⟩ := issued.mem_iff.1 h
    obtain ⟨d', hd', hid, -, rfl⟩ := issued.mem_iff.1 h'
    rw [List.inj_on_of_nodup_map ids hd' hd hid]
  · exact hgraph p.1 p.2 (regular.uses.graphs p hp).released (regular.cached p hp)
  · obtain ⟨d, hd, hid, left⟩ := (regular.uses.runs r hr).names.released
    exact ⟨d.graph, issued.mem_iff.2 ⟨d, hd, hid, left, rfl⟩⟩
  · exact fun edit => q.path_of_isEdit edit ids
  · intro rest
    refine Relation.ReflTransGen.mono (fun _ _ hwork => hwork.mono fun run g used => ?_) _ _
      (q.works regular rest spared)
    obtain ⟨d, -, hparse, hmem⟩ := hgraph run.definition g used.1 used.2
    exact ⟨d.graph, hmem, hparse⟩

/-- The surroundings of `Engine.careful`, with an id of its own for the first version. -/
def issuing : Environment Unit :=
  { Engine.careful with
    host := { Engine.careful.host with
      freshId := fun kind db _ => match kind with
        | .definition _ version => (if version = 1 then "pause-1" else "pause-2", ())
        | kind => Engine.careful.host.freshId kind db () } }

/-- The graph `Engine.pause` without its delay: who is given the tag loses it. -/
def Engine.untagging : Value := .obj [
  ("nodes", .list [
    .obj [("id", .str "start"), ("type", .str "trigger"),
      ("data", .obj [("triggerType", .str "tag_added"),
        ("config", .obj [("tag_id", .str "vip")])])],
    .obj [("id", .str "wait"), ("type", .str "remove_tag"),
      ("data", .obj [("config", .obj [("tag_id", .str "vip")])])]]),
  ("edges", .list [.obj [("source", .str "start"), ("target", .str "wait")]])]

/-- The world in which a contact waits in the first version of a workflow. -/
def lingering : World Unit :=
  (Request.operate (.event (Engine.tagging "c-1"))).perform issuing
    ((Request.publish "pause" "o-1").perform issuing
      ((Request.create "o-1" "Pause" "" Engine.pause none).perform issuing Engine.blank))

/-- The world in which another graph was drafted, the first version is archived, and the process was
restarted. -/
def superseded : World Unit :=
  (Request.operate .restart).perform issuing
    ((Request.archive "pause" "o-1").perform issuing
      ((Request.save "pause" "o-1" { graph := some Engine.untagging }).perform issuing lingering))

/-- The draft would take the tag on the node where the archived version waits. The contact that
waits there has nothing ahead after the delay: nothing is asked for. -/
theorem runs_keep_edition_of_superseded :
    ∃ editions, World.Issued editions superseded ∧ editions.map (·.1) = ["pause-1"] ∧
      superseded.db.definitions.map (fun d => (d.id, d.status)) =
        [("pause-1", .known .archived), ("pause-2", .known .draft)] ∧
      ∃ q : Request, ¬q.IsEdit ∧ q.SparesDrafts superseded ∧
        Path (Works issuing fun run g =>
          ∃ raw, (run.definition, raw) ∈ editions ∧ Graph.ofValue raw = .ok g) superseded
          (q.perform issuing superseded) ∧
        (q.perform issuing superseded).db.runs.map (fun r => (r.definition, r.node, r.state)) =
          [("pause-1", "wait", .completed)] ∧
        (q.perform issuing superseded).calls.length = superseded.calls.length := by
  have named : ∀ id, issuing.host.NamesDefinition id → ':' ∉ id.toList := by
    rintro _ ⟨workflow, version, db, s, rfl⟩
    change ':' ∉ (if version = 1 then "pause-1" else "pause-2").toList
    split <;> decide
  obtain ⟨editions, issued, heq⟩ : ∃ editions, World.Issued editions superseded ∧
      editions.map (·.1) = ["pause-1"] := by
    have waits : World.Issued _ lingering :=
      .serve (.serve (.serve (.empty rfl rfl) issuing named _ (by trivial)) issuing named _
        (by trivial)) issuing named _ (by trivial)
    have issued : World.Issued _ superseded :=
      .serve (.serve (.serve waits issuing named _ (by trivial)) issuing named _ (by trivial))
        issuing named _ (by trivial)
    exact ⟨_, issued, by decide +kernel⟩
  obtain ⟨-, -, -, hserved⟩ := runs_keep_edition issued
  have rest : ¬(Request.operate (.sweepAt ⟨7200000000⟩)).IsEdit := id
  have spared : (Request.operate (.sweepAt ⟨7200000000⟩)).SparesDrafts superseded := trivial
  exact ⟨editions, issued, heq, by decide +kernel, _, rest, spared,
    (hserved issuing _ spared).2 rest, by decide +kernel, by decide +kernel⟩

end CrmAutomation
