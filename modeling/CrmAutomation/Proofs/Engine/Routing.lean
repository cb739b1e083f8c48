import CrmAutomation.Proofs.Engine.Advance

/-!
# Handling events and sweeping

Whatever the engine is asked to do, it does by steps that keep the world sound and never write a
definition (`Engine.Goes`): it executes a run (`goes_runFrom`), handles an event and all that
follows from it (`goes_handleEvent`), starts a run by hand and sweeps. What is kept where runs are
begun and where one is executed is kept by all that follows from an event (`Engine.Upholds`, by
induction on the levels of follow-up events).
-/

namespace CrmAutomation

variable {σ α β : Type}

/-- The world is sound, and the definitions are those that were there at first. -/
def Kept (G : String → Graph → Prop) (ds : List Definition) (w : World σ) : Prop :=
  Sound G w ∧ w.db.definitions = ds

namespace Engine

variable {env : Environment σ} {G : String → Graph → Prop} {scope : Scope} {ds : List Definition}

/-- A computation that goes by steps from a sound world to a sound world. -/
def Goes (env : Environment σ) (G : String → Graph → Prop) (scope : Scope) (ds : List Definition)
    (x : Engine σ α) : Prop :=
  Leads (Step env G scope) (Kept G ds) x (fun _ => Kept G ds) (Kept G ds)

theorem kept_of_step {w w' : World σ} (h : Step env G scope w w') (hw : Kept G ds w) :
    Kept G ds w' :=
  ⟨h.sound hw.1, h.effect.definitions_eq.trans hw.2⟩

/-- A database that does not fail is called without a failure. -/
theorem leads_interrupt_kept (reliable : env.host.Reliable) (call : StorageCall) :
    Leads (Step env G scope) (Kept G ds) (interrupt env call) (fun _ => Kept G ds)
      fun _ => False :=
  ((leads_interrupt call (.const True)).keep fun _ _ => kept_of_step).conseq
    (fun _ hw => ⟨hw, trivial⟩) (fun _ _ hw => hw.1) fun _ hw => hw.2.2 (reliable.sure _)

theorem leads_look_kept (reliable : env.host.Reliable) (call : StorageCall)
    (query : Database → α) :
    Leads (Step env G scope) (Kept G ds) (look env call query)
      (fun a w => Kept G ds w ∧ a = query w.db) fun _ => False :=
  .bind (leads_interrupt_kept reliable call) fun _ _ hw => ⟨.refl, hw, rfl⟩

/-- The world stays sound in every computation that is known from its steps. -/
theorem Leads.kept {A X : World σ → Prop} {B : α → World σ → Prop} {x : Engine σ α}
    (hx : Leads (Step env G scope) A x B X) (hA : ∀ w, Kept G ds w → A w) :
    Leads (Step env G scope) (Kept G ds) x (fun a w => Kept G ds w ∧ B a w) (Kept G ds) :=
  (hx.keep fun _ _ => kept_of_step).conseq (fun w hw => ⟨hw, hA w hw⟩) (fun _ _ hw => hw)
    fun _ hw => hw.1

namespace Goes

variable {x : Engine σ α} {f : α → Engine σ β}

theorem of_leads {A X : World σ → Prop} {B : α → World σ → Prop}
    (hx : Leads (Step env G scope) A x B X) (hA : ∀ w, Kept G ds w → A w) :
    Goes env G scope ds x :=
  (hx.kept hA).post fun _ _ hw => hw.1

theorem of_keeps (hx : Keeps env G scope x) : Goes env G scope ds x :=
  of_leads (hx (fun _ => True) (.const True)) fun _ _ => trivial

theorem pure (a : α) : Goes env G scope ds (Pure.pure a : Engine σ α) := of_keeps (.pure a)

theorem throw (e : Failure) : Goes env G scope ds (throw e : Engine σ α) := of_keeps (.throw e)

theorem ofExcept (r : Except Failure α) : Goes env G scope ds (Engine.ofExcept r) :=
  of_keeps (.ofExcept r)

theorem bind (hx : Goes env G scope ds x) (hf : ∀ a, Goes env G scope ds (f a)) :
    Goes env G scope ds (x >>= f) :=
  Stays.bind hx hf

theorem attempt (hx : Goes env G scope ds x) : Goes env G scope ds (Engine.attempt x) :=
  Stays.attempt hx

theorem look (call : StorageCall) (query : Database → α) :
    Goes env G scope ds (Engine.look env call query) :=
  of_keeps (keeps_look call query)

theorem interrupt (call : StorageCall) : Goes env G scope ds (Engine.interrupt env call) :=
  of_keeps fun _ hA => (leads_interrupt call hA).fails fun _ hw => hw.1

end Goes

/-! ## What is kept by all that follows from an event -/

section Upholding

variable {S : World σ → World σ → Prop} {I : World σ → Prop} {route : List Event → Engine σ Unit}

/-- Begins the runs of an event, in the turn of its contact. -/
def matching (env : Environment σ) (e : Event) : Engine σ MatchResult :=
  inTurn e.organization e.contact do
    startRuns env e (← candidates env e) { event := e.id }

/-- What is done in the turn of a contact is done as well without it. -/
theorem leads_inTurn {A X : World σ → Prop} {B : α → World σ → Prop} {x : Engine σ α}
    (organization contact : String)
    (hturn : ∀ (w : World σ) turns, S w { w with turns := turns })
    (hA : ∀ w turns, A w → A { w with turns := turns })
    (hB : ∀ a w turns, B a w → B a { w with turns := turns })
    (hX : ∀ w turns, X w → X { w with turns := turns }) (hx : Leads S A x B X) :
    Leads S A (inTurn organization contact x) B X := by
  refine .bind (leads_get (B := fun _ => A) fun _ hw => hw) fun _ => ?_
  refine .bind (B := fun _ => A) (fun w hw => ⟨.single (hturn w _), hA w _ hw⟩) fun _ => ?_
  refine .bind (B := fun r w => (∀ a, r = .ok a → B a w) ∧ ∀ f, r = .error f → X w)
    (hx.attempt (fun a w hw => ?_) fun f w hw => ?_) fun r => ?_
  · exact ⟨by rintro _ ⟨⟩; exact hw, by rintro _ ⟨⟩⟩
  · exact ⟨by rintro _ ⟨⟩, fun _ _ => hw⟩
  refine .bind (B := fun _ w => (∀ a, r = .ok a → B a w) ∧ ∀ f, r = .error f → X w)
    (fun w hw => ⟨.single (hturn w _), fun a ha => hB a w _ (hw.1 a ha),
      fun f hf => hX w _ (hw.2 f hf)⟩) fun _ => ?_
  cases r with
  | ok a => exact .pure a fun _ hw => hw.1 a rfl
  | error f => exact .throw f fun _ hw => hw.2 f rfl

/-- What is kept where an event begins runs is kept in the turn of its contact. -/
theorem stays_inTurn {x : Engine σ α} (organization contact : String)
    (hturns : ∀ f : World σ → Turns (String × String),
      Stays S I (modify fun w => { w with turns := f w } : Engine σ Unit))
    (hx : Stays S I x) : Stays S I (inTurn organization contact x) :=
  .bind (leads_get (B := fun _ => I) fun _ hw => hw) fun _ => .bind (hturns _) fun _ =>
    .bind hx.attempt fun r => .bind (hturns _) fun _ => .ofExcept r

/-- `I` is kept where an event is taken, where it begins runs, and where a run is executed if it is
kept where the events are handed on that the run causes. -/
structure Upholds (env : Environment σ) (S : World σ → World σ → Prop) (I : World σ → Prop) :
    Prop where
  call : Stays S I (interrupt env .handleEvent)
  matching : ∀ e, e.chainDepth ≤ env.rules.maxChainDepth → Stays S I (matching env e)
  running : ∀ route, (∀ es, Stays S I (route es)) → ∀ id, Stays S I (runFrom env route false id)

namespace Upholds

variable (h : Upholds env S I)

include h

theorem advanceAll (hroute : ∀ es, Stays S I (route es)) :
    ∀ l : List Run, Stays S I (advanceAll env route l)
  | [] => .pure _
  | run :: l => .bind (h.running route hroute run.id) fun _ =>
      .bind (advanceAll hroute l) fun _ => .pure _

theorem handleWith (hroute : ∀ es, Stays S I (route es)) (e : Event) :
    Stays S I (handleWith env route e) := by
  unfold Engine.handleWith
  refine .bind h.call fun _ => ?_
  split
  · exact .pure _
  · rename_i hdepth
    exact .bind (h.matching e (Int.not_lt.1 hdepth)) fun r =>
      .bind (h.advanceAll hroute r.runs) fun _ => .pure _

omit h in
theorem routeEach {handle : Event → Engine σ MatchResult} (hhandle : ∀ e, Stays S I (handle e)) :
    ∀ es : List Event, Stays S I (routeEach handle es)
  | [] => .pure _
  | e :: es => .bind (hhandle e) fun _ => routeEach hhandle es

theorem handleWithin (levels : Nat) (e : Event) : Stays S I (handleWithin env levels e) := by
  induction levels generalizing e with
  | zero => exact h.handleWith (fun _ => .pure ()) e
  | succ levels ih => exact h.handleWith (routeEach ih) e

theorem handleEvent (e : Event) : Stays S I (handleEvent env e) :=
  h.handleWithin _ e

theorem routeFollowUps (es : List Event) : Stays S I (routeFollowUps env es) :=
  routeEach h.handleEvent es

theorem advance (id : String) : Stays S I (advance env id) :=
  h.running _ h.routeFollowUps id

end Upholds

/-- The answer to a query is that of the database after what the host does. -/
theorem leads_query {call : StorageCall} (hcall : Stays S I (interrupt env call))
    (query : Database → α) :
    Leads S I (look env call query) (fun a w => I w ∧ a = query w.db) I :=
  .bind hcall fun _ _ hw => ⟨.refl, hw, rfl⟩

/-- What is kept where the stored run is walked is kept where it is executed. -/
theorem stays_runFrom_of {resuming : Bool} {id : String}
    (hcall : ∀ call, call ≠ .record → Stays S I (interrupt env call))
    (hwalk : ∀ run, run.id = id → Leads S (fun w => I w ∧ run ∈ w.db.runs)
      (walkRun env resuming run) (fun _ => I) I)
    (hroute : ∀ es, Stays S I (route es)) : Stays S I (runFrom env route resuming id) := by
  refine .bind (hcall _ (by cases resuming <;> simp)) fun _ =>
    Leads.bind (leads_query (hcall .getRun nofun) _) fun found => ?_
  split
  · exact .pure _ fun _ hw => hw.1
  · rename_i run
    refine .assume (p := run.id = id) (fun _ hw => ?_) fun hid => ?_
    · simpa using List.find?_some hw.2.symm
    · split
      · exact .pure _ fun _ hw => hw.1
      · have hstored : ∀ w : World σ, I w ∧ some run = w.db.run? id → I w ∧ run ∈ w.db.runs :=
          fun w hw => ⟨hw.1, List.mem_of_find?_eq_some hw.2.symm⟩
        refine .bind ((hwalk run hid).pre hstored) fun o => ?_
        dsimp only
        split
        · exact Stays.bind (hroute _).attempt fun _ => .pure _
        · exact Stays.pure _

/-- What is kept where a stored run is walked is kept where a run is executed. -/
theorem stays_runFrom {resuming : Bool}
    (hcall : ∀ call, call ≠ .record → Stays S I (interrupt env call))
    (hwalk : ∀ run, Leads S (fun w => I w ∧ run ∈ w.db.runs) (walkRun env resuming run)
      (fun _ => I) I)
    (hroute : ∀ es, Stays S I (route es)) (id : String) :
    Stays S I (runFrom env route resuming id) :=
  stays_runFrom_of hcall (fun run _ => hwalk run) hroute

end Upholding

/-! ## Executing runs -/

/-- A run, while it is running, is on a delay that is over. -/
def Over (scope : Scope) (id : String) (w : World σ) : Prop :=
  ∀ r ∈ w.db.runs, r.id = id → r.state = .running → scope.elapsed r.id r.node

theorem calm_over (scope : Scope) (id : String) : Calm (Over (σ := σ) scope id) := by
  intro w w' h hw r' hr' hid hrunning
  obtain ⟨r, hr, rfl | ⟨-, time, rfl⟩⟩ := h.exists_before hr'
  · exact hw r' hr hid hrunning
  · cases hrunning

/-- The part of an execution that comes after it was asked for: the run is read and walked. -/
def runFound (env : Environment σ) (route : List Event → Engine σ Unit) (resuming : Bool)
    (id : String) : Engine σ Outcome := do
  match ← look env .getRun fun db => db.run? id with
  | none => return { run := id }
  | some run =>
    if run.state ≠ .running then return { run := id, state := some run.state }
    else
      let o ← walkRun env resuming run
      if !o.emitted.isEmpty then
        let _ ← attempt (route o.emitted)
      return o

theorem runFrom_eq (env : Environment σ) (route : List Event → Engine σ Unit) (resuming : Bool)
    (id : String) : runFrom env route resuming id =
      interrupt env (if resuming then .resume else .advance) >>= fun _ =>
        runFound env route resuming id :=
  rfl

/-- Executing a run goes by steps when handing on its events does. A resumed run is on a delay that
is over; so it is still if the execution fails, unless the run could not be failed. -/
theorem leads_runFound {route : List Event → Engine σ Unit}
    (hroute : ∀ es, Goes env G scope ds (route es)) (resuming : Bool) (id : String) :
    Leads (Step env G scope) (fun w => Kept G ds w ∧ (resuming → Over scope id w))
      (runFound env route resuming id) (fun _ => Kept G ds)
      fun w => Kept G ds w ∧ (env.host.Sure .fail → resuming → Over scope id w) := by
  have calm : Calm (σ := σ) fun w => resuming → Over scope id w :=
    fun w w' h hw hresuming => calm_over scope id w w' h (hw hresuming)
  unfold runFound
  refine Leads.bind ((Leads.keep (leads_look .getRun (fun db => db.run? id) calm)
    fun _ _ => kept_of_step).fails fun w hw => ⟨hw.1, fun _ => hw.2.1⟩) fun found => ?_
  split
  · exact Leads.pure _ fun w hw => hw.1
  · rename_i run
    split
    · exact Leads.pure _ fun w hw => hw.1
    · rename_i hrunning
      replace hrunning : run.state = .running := Classical.not_not.1 hrunning
      refine Leads.bind (B := fun _ => Kept G ds) ?_ fun o => ?_
      · rintro w ⟨hkept, hover, hrun⟩
        have hmem : run ∈ w.db.runs := List.mem_of_find?_eq_some hrun.symm
        have hid : run.id = id := by simpa using List.find?_some hrun.symm
        have hwalk : Leads (Step env G scope) (fun v => v = w) (walkRun env resuming run)
            (fun _ => Kept G ds)
            fun w => Kept G ds w ∧ (env.host.Sure .fail → resuming → Over scope id w) := by
          refine (Leads.keep (leads_walkRun run resuming fun h => hover h run hmem hid hrunning)
            fun _ _ => kept_of_step).conseq ?_ (fun _ _ hw => hw.1)
            fun w hw => ⟨hw.1, fun sure _ r hr hrid hstate => ?_⟩
          · rintro _ rfl
            exact ⟨hkept, hkept.1.ids, ⟨run, hmem, rfl, rfl, rfl⟩, fun g hg => hkept.1.graphFor? hg⟩
          · obtain ⟨o, ho, hoid, hidle⟩ := hw.2.2 sure
            obtain rfl := Distinct.eq_of_id_eq hw.1.1.ids hr ho (by rw [hrid, ← hid, hoid])
            exact absurd hstate hidle
        exact hwalk w rfl
      · dsimp only
        split
        · exact .bind (B := fun _ => Kept G ds) (Leads.attempt (hroute _) (fun _ _ hw => hw)
            fun _ _ hw => hw) fun _ => .pure _ fun _ hw => hw
        · exact .pure _ fun _ hw => hw

theorem leads_runFrom {route : List Event → Engine σ Unit}
    (hroute : ∀ es, Goes env G scope ds (route es)) (resuming : Bool) (id : String) :
    Leads (Step env G scope) (fun w => Kept G ds w ∧ (resuming → Over scope id w))
      (runFrom env route resuming id) (fun _ => Kept G ds)
      fun w => Kept G ds w ∧ (env.host.Sure .fail → resuming → Over scope id w) := by
  have calm : Calm (σ := σ) fun w => resuming → Over scope id w :=
    fun w w' h hw hresuming => calm_over scope id w w' h (hw hresuming)
  rw [runFrom_eq]
  refine Leads.bind ((Leads.keep (leads_interrupt _ calm) fun _ _ => kept_of_step).fails
    fun w hw => ⟨hw.1, fun _ => hw.2.1⟩) fun _ => leads_runFound hroute resuming id

theorem goes_runFrom {route : List Event → Engine σ Unit}
    (hroute : ∀ es, Goes env G scope ds (route es)) (resuming : Bool) (id : String)
    (hover : resuming → ∀ node, scope.elapsed id node) :
    Goes env G scope ds (runFrom env route resuming id) :=
  (leads_runFrom hroute resuming id).conseq
    (fun _ hw => ⟨hw, fun hresuming r _ hid _ => hid ▸ hover hresuming r.node⟩)
    (fun _ _ hw => hw) fun _ hw => hw.1

/-! ## Starting runs -/

/-- A definition that is there, with the trigger of its graph. -/
def Startable (G : String → Graph → Prop) (ds : List Definition) (d : Definition)
    (trigger : Node) : Prop :=
  d ∈ ds ∧ ∃ g, G d.id g ∧ g.trigger? = some trigger

/-- The graph of a definition is that which it has, and one that has none cannot be read. -/
theorem leads_usableGraph {d : Definition} (hd : d ∈ ds) :
    Leads (Step env G scope) (Kept G ds) (usableGraph? d)
      (fun g w => Kept G ds w ∧ (∀ g', g = some g' → G d.id g') ∧
        (g = none → ∀ g', parse d.graph ≠ .ok g')) fun _ => False := by
  unfold usableGraph?
  refine .bind (B := fun v w => Kept G ds w ∧ w = v) (leads_get fun w hw => ⟨hw, rfl⟩) fun v => ?_
  refine .assume (fun w hw => hw.2 ▸ hw.1) fun hkept => ?_
  split
  · rename_i g hcached
    refine .pure _ fun w hw => ⟨hw.1, ?_, by simp⟩
    rintro g' ⟨⟩
    refine hkept.1.graphFor? ?_
    rw [World.graphFor?, hcached]
  · split
    · rename_i f hparse
      exact .pure _ fun w hw => ⟨hw.1, by simp, fun _ g' hg' => by simp [hparse] at hg'⟩
    · rename_i g hparse
      have hg : G d.id g := hkept.1.stored d (hkept.2 ▸ hd) g hparse
      refine .bind (((leads_remember (A := fun _ => True) (.const True) hg).keep
        fun _ _ => kept_of_step).conseq (fun w hw => ⟨hw.1, trivial⟩) (fun _ _ hw => hw.1)
        fun _ hw => hw.2) fun _ => .pure _ fun w hw => ⟨hw, ?_, by simp⟩
      rintro g' ⟨⟩
      exact hg

theorem leads_withTriggers : ∀ (l : List Definition), (∀ d ∈ l, d ∈ ds) →
    Leads (Step env G scope) (Kept G ds) (withTriggers l)
      (fun found w => Kept G ds w ∧ ∀ p ∈ found, Startable G ds p.1 p.2) (Kept G ds)
  | [], _ => .pure _ fun w hw => ⟨hw, by simp⟩
  | d :: l, hl => by
    unfold withTriggers
    refine .bind ((leads_usableGraph (hl d List.mem_cons_self)).fails fun _ => False.elim)
      fun g => ?_
    refine .assume (fun w hw => hw.2.1) fun hg => ?_
    refine .bind ((leads_withTriggers l fun o ho => hl o (List.mem_cons_of_mem d ho)).pre
      fun w hw => hw.1) fun others => ?_
    split
    · rename_i trigger htrigger
      refine .pure _ fun w hw => ⟨hw.1, fun p hp => ?_⟩
      rcases List.mem_cons.1 hp with rfl | hp
      · obtain ⟨g', rfl, htrigger⟩ := Option.bind_eq_some_iff.1 htrigger
        exact ⟨hl d List.mem_cons_self, g', hg g' rfl, htrigger⟩
      · exact hw.2 p hp
    · exact .pure _ fun w hw => hw

theorem mem_of_mem_publishedFor {db : Database} {organization type : String} {d : Definition}
    (h : d ∈ db.publishedFor organization type) : d ∈ db.definitions := by
  rw [Database.publishedFor, List.mem_mergeSort] at h
  exact (List.mem_filter.1 h).1

theorem leads_candidates (e : Event) :
    Leads (Step env G scope) (Kept G ds) (candidates env e)
      (fun found w => Kept G ds w ∧ ∀ p ∈ found, Startable G ds p.1 p.2) (Kept G ds) := by
  refine .bind ((leads_look .publishedFor (fun db => db.publishedFor e.organization e.type.text)
    (.const True)).kept fun _ _ => trivial) fun found => ?_
  refine .assume (p := ∀ d ∈ found, d ∈ ds) (fun w hw d hd => ?_) fun hfound => ?_
  · rw [hw.2.2] at hd
    exact hw.1.2 ▸ mem_of_mem_publishedFor hd
  · exact (leads_withTriggers found hfound).pre fun w hw => hw.1

theorem goes_createRun {d : Definition} {trigger : Node} (h : Startable G ds d trigger)
    (contact : String) (event : Value) (chainDepth : Int) :
    Goes env G scope ds (createRun env d contact trigger.id event chainDepth) := by
  obtain ⟨hd, g, hg, htrigger⟩ := h
  refine .of_leads (A := fun w => w.db.definitions = ds) (B := fun _ _ => True)
    (leads_createRun d contact trigger.id event chainDepth (.definitions fun l => l = ds)
      (fun w hw => ⟨hw ▸ hd, g, trigger, hg, htrigger, rfl⟩) fun _ _ _ _ => trivial)
    fun w hw => hw.2

theorem goes_startRuns (e : Event) : ∀ (l : List (Definition × Node)) (r : MatchResult),
    (∀ p ∈ l, Startable G ds p.1 p.2) → Goes env G scope ds (startRuns env e l r)
  | [], r, _ => .pure r
  | (d, trigger) :: l, r, hl => by
    have hrest : ∀ r, Goes env G scope ds (startRuns env e l r) := fun r =>
      goes_startRuns e l r fun p hp => hl p (List.mem_cons_of_mem _ hp)
    unfold startRuns
    split
    · refine .bind (goes_createRun (hl _ List.mem_cons_self) _ _ _) fun created => ?_
      split
      · exact hrest _
      · exact hrest _
    · exact hrest _

/-! ## Events -/

theorem goes_turns (f : World σ → Turns (String × String)) :
    Goes env G scope ds (modify fun w => { w with turns := f w } : Engine σ Unit) :=
  .of_leads (A := fun _ => True) (B := fun _ _ => True) (X := fun _ => True)
    (fun w _ => ⟨.single (.turn (f w)), trivial⟩) fun _ _ => trivial

theorem goes_inTurn {x : Engine σ α} (organization contact : String)
    (hx : Goes env G scope ds x) : Goes env G scope ds (inTurn organization contact x) :=
  stays_inTurn _ _ goes_turns hx

theorem goes_matching (e : Event) : Goes env G scope ds (matching env e) := by
  refine goes_inTurn _ _ (Leads.bind (leads_candidates e) fun found => ?_)
  refine .assume (fun w hw => hw.2) fun hfound => ?_
  exact Leads.pre (goes_startRuns e found _ hfound) fun w hw => hw.1

theorem upholds_kept : Upholds env (Step env G scope) (Kept G ds) where
  call := Goes.interrupt _
  matching e _ := goes_matching e
  running _ hroute id := goes_runFrom hroute false id (by simp)

theorem goes_handleEvent (e : Event) : Goes env G scope ds (handleEvent env e) :=
  upholds_kept.handleEvent e

theorem goes_routeFollowUps (es : List Event) : Goes env G scope ds (routeFollowUps env es) :=
  upholds_kept.routeFollowUps es

theorem goes_advance (id : String) : Goes env G scope ds (advance env id) :=
  upholds_kept.advance id

theorem goes_resume (id : String) (hover : ∀ node, scope.elapsed id node) :
    Goes env G scope ds (resume env id) :=
  goes_runFrom goes_routeFollowUps true id fun _ => hover

theorem goes_startManually {d : Definition} (hd : d ∈ ds) (contact : String) (payload : Members) :
    Goes env G scope ds (startManually env d contact payload) := by
  unfold startManually
  refine Leads.bind ((leads_usableGraph hd).fails fun _ => False.elim) fun g => ?_
  refine .assume (fun w hw => hw.2.1) fun hg => ?_
  refine Leads.pre (A := Kept G ds) ?_ fun w hw => hw.1
  split
  · exact Goes.throw _
  · rename_i trigger htrigger
    obtain ⟨g', rfl, htrigger⟩ := Option.bind_eq_some_iff.1 htrigger
    refine Goes.bind (.ofExcept _) fun type => .bind (.of_keeps (keeps_freshId _)) fun id =>
      .bind (.of_keeps keeps_now) fun time => ?_
    have hstartable : Startable G ds d trigger := ⟨hd, g', hg g' rfl, htrigger⟩
    refine .bind (goes_inTurn _ _ (goes_createRun hstartable _ _ _)) fun created => ?_
    split
    · exact .pure _
    · exact .bind (goes_advance _) fun _ => .pure _

/-! ## Sweeps -/

theorem goes_cancel (id : String) (h : ∀ db, scope.outside db (.cancel id)) :
    Goes env G scope ds (cancel env id) :=
  .of_leads (A := fun _ => True ∧ True) (B := fun _ _ => True)
    (leads_stored (T := fun _ => True) .cancel (.cancel id) rfl (.const True) (fun _ _ => rfl)
      (fun w _ => h w.db) (fun _ _ _ _ => trivial) fun _ _ => trivial) fun _ _ => ⟨trivial, trivial⟩

/-- A write that compares a lock changes the database by its command, or fails before it. -/
theorem leads_raiseLock {A : World σ → Prop} {B : Bool → World σ → Prop} (call : StorageCall)
    (lock : Int) (c : RunCommand) (old : c.isCreate = false)
    {change : Instant → Database → Bool × Database} (hA : Calm A)
    (hc : ∀ time db, (change time db).2 = c.perform time db)
    (allowed : ∀ w, A w → c.Allowed G scope w.db)
    (timely : ∀ time db, c.Timely G time db)
    (hB : ∀ w, A w → B (change (w.clock.later 1) w.db).1 (w.commanded c)) :
    Leads (Step env G scope) A (raiseLock env call lock change) B A := by
  intro w hw
  have hw' := calm_interrupted env call hA hw
  rw [raiseLock, run_interrupt_bind]
  split
  · exact ⟨.single (.interrupt call), hw'⟩
  · split
    · rw [run_commit]
      have hstep : Step env G scope w ((w.interrupted env call).commanded c) :=
        .command call c old (allowed _ hw') (timely _ _)
      have hB' := hB _ hw'
      rw [World.commanded, ← hc] at hstep hB'
      exact ⟨.single hstep, hB'⟩
    · exact ⟨.single (.interrupt call), hw'⟩

theorem goes_raiseLock (call : StorageCall) (lock : Int) (c : RunCommand) (old : c.isCreate = false)
    {change : Instant → Database → Bool × Database}
    (hc : ∀ time db, (change time db).2 = c.perform time db)
    (allowed : ∀ db, c.Allowed G scope db) (timely : ∀ time db, c.Timely G time db) :
    Goes env G scope ds (raiseLock env call lock change) :=
  .of_leads (A := fun _ => True) (B := fun _ _ => True) (leads_raiseLock call lock c old
    (.const True) hc (fun w _ => allowed w.db) timely fun _ _ => trivial) fun _ _ => trivial

theorem goes_claimSuspended (c : Claim) (h : ∀ db, scope.outside db (.claimSuspended c)) :
    Goes env G scope ds (claimSuspended env c) :=
  goes_raiseLock _ _ (.claimSuspended c) rfl (fun _ _ => rfl) h fun _ _ => trivial

theorem goes_claimStale (c : Claim) (h : ∀ db, scope.outside db (.claimStale c)) :
    Goes env G scope ds (claimStale env c) :=
  goes_raiseLock _ _ (.claimStale c) rfl (fun _ _ => rfl) h fun _ _ => trivial

theorem goes_release (c : Claim) (resumeAt : Instant)
    (h : ∀ db, scope.outside db (.release c resumeAt)) :
    Goes env G scope ds (release env c resumeAt) :=
  goes_raiseLock _ _ (.release c resumeAt) rfl (fun _ _ => rfl) h fun _ _ => trivial

section Claims

variable {S : World σ → World σ → Prop} {I : World σ → Prop} {take : Claim → Engine σ Bool}
  {run : String → Engine σ Outcome} {releaseAt : Option Instant}

theorem stays_handleClaim (htake : ∀ c, Stays S I (take c)) (hrun : ∀ id, Stays S I (run id))
    (hgive : ∀ c, Stays S I (giveBack env c releaseAt)) (r : SweepReport) (c : Claim) :
    Stays S I (handleClaim env take run releaseAt r c) := by
  unfold handleClaim
  refine .bind (htake c).attempt fun taken => ?_
  split
  · exact .pure _
  · exact .pure _
  · refine .bind (hrun c.run).attempt fun ended => ?_
    split
    · exact .pure _
    · exact .bind (hgive c) fun _ => .pure _

theorem stays_handleClaims (htake : ∀ c, Stays S I (take c)) (hrun : ∀ id, Stays S I (run id))
    (hgive : ∀ c, Stays S I (giveBack env c releaseAt)) :
    ∀ (r : SweepReport) (l : List Claim), Stays S I (handleClaims env take run releaseAt r l)
  | r, [] => .pure r
  | r, c :: l => .bind (stays_handleClaim htake hrun hgive r c) fun r' =>
      stays_handleClaims htake hrun hgive r' l

theorem stays_handleAll (htake : ∀ c, Stays S I (take c)) (hrun : ∀ id, Stays S I (run id))
    (hgive : ∀ c, Stays S I (giveBack env c releaseAt)) (r : SweepReport) (l : List Claim) :
    Stays S I (handleAll env take run releaseAt r l) := by
  unfold handleAll
  split
  · exact .throw _
  · exact stays_handleClaims htake hrun hgive r l

theorem stays_giveBack {time : Instant} (hrelease : ∀ c, Stays S I (release env c time))
    (c : Claim) : Stays S I (giveBack env c (some time)) :=
  Stays.bind (hrelease c).attempt fun _ => .pure _

theorem stays_sweepAt {time : Instant} (hdue : ∀ limit, Stays S I (dueRuns env time limit))
    (hclaim : ∀ c, Stays S I (claimSuspended env c)) (hresume : ∀ id, Stays S I (resume env id))
    (hrelease : ∀ c, Stays S I (release env c time))
    (hrecover : ∀ r, Stays S I (recoverStale env time r)) : Stays S I (sweepAt env time) :=
  .bind (hdue _) fun _ =>
    .bind (stays_handleAll hclaim hresume (stays_giveBack hrelease) _ _) hrecover

end Claims

theorem goes_dueRuns (time : Instant) (limit : Int) :
    Goes env G scope ds (dueRuns env time limit) :=
  .bind (.look _ _) fun _ => .ofExcept _

theorem goes_recoverStale (h : ∀ db c, scope.outside db (.claimStale c)) (time : Instant)
    (r : SweepReport) : Goes env G scope ds (recoverStale env time r) :=
  .bind (.ofExcept _) fun _ => .bind (.bind (.look _ _) fun _ => .ofExcept _) fun _ =>
    .bind (stays_handleAll (fun c => goes_claimStale c fun db => h db c) goes_advance
      (fun _ => .pure _) _ _) fun _ => .pure _

theorem goes_sweepAt (time : Instant) : Goes env G .free ds (sweepAt env time) :=
  stays_sweepAt (goes_dueRuns time) (fun c => goes_claimSuspended c fun _ => trivial)
    (fun id => goes_resume id fun _ => trivial) (fun c => goes_release c time fun _ => trivial)
    (goes_recoverStale (fun _ _ => trivial) time)

theorem goes_sweep : Goes env G .free ds (sweep env) :=
  .bind (.of_keeps keeps_now) fun time => goes_sweepAt time

end Engine

end CrmAutomation
