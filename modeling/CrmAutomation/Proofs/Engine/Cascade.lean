import CrmAutomation.Proofs.Engine.Requests

/-!
# Chains of events

An event that is handled may cause others, which are handled within it. Each of them is one deeper
than the event, because it carries the depth of a run, and a run carries the depth of the event that
began it (`Engine.leads_startRuns`, `Engine.yields_walkRun`). An event that is too deep begins no
runs. So however workflows trigger each other, what would be done with events many levels down makes
no difference (`Engine.handleNested_eq`), and no run is deeper than the greatest depth allows
(`Engine.chains_end`).
-/

namespace CrmAutomation

variable {σ α β : Type}

/-- Events of some depth. -/
def AllDeep (depth : Int) (events : List Event) : Prop := ∀ e ∈ events, e.chainDepth = depth

theorem allDeep_nil (depth : Int) : AllDeep depth [] := by simp [AllDeep]

theorem AllDeep.append {depth : Int} {l l' : List Event} (h : AllDeep depth l)
    (h' : AllDeep depth l') : AllDeep depth (l ++ l') := fun e he =>
  (List.mem_append.1 he).elim (h e) (h' e)

namespace Engine

variable {env : Environment σ} {run : Run} {P Q : α → Prop} {x : Engine σ α}

/-! ## Events of actions -/

/-- Whatever `x` returns is as `P` says. -/
abbrev Yields (P : α → Prop) (x : Engine σ α) : Prop :=
  Leads Any (fun _ => True) x (fun a _ => P a) fun _ => True

namespace Yields

theorem pure {a : α} (h : P a) : Yields P (Pure.pure a : Engine σ α) := Leads.pure a fun _ _ => h

theorem throw (e : Failure) : Yields P (throw e : Engine σ α) := Leads.throw e fun _ _ => trivial

/-- What comes before is of no account. -/
theorem bind {R : β → Prop} {f : α → Engine σ β} (hf : ∀ a, Yields R (f a)) :
    Yields R (x >>= f) :=
  Leads.bind (Leads.any x) hf

/-- What follows may go by what was returned. -/
theorem andThen {R : β → Prop} {f : α → Engine σ β} (hx : Yields P x)
    (hf : ∀ a, P a → Yields R (f a)) : Yields R (x >>= f) :=
  Leads.bind hx fun a => .assume (fun _ hw => hw) fun ha => (hf a ha).pre fun _ _ => trivial

end Yields

/-- What an answer brings causes events one deeper than the run. -/
def Deepens (run : Run) : Answer ActionResult → Prop
  | .value r => AllDeep (run.chainDepth + 1) r.emitted
  | _ => True

theorem yields_followUp (c : ActionContext) (type : EventType) (payload : Members) :
    Yields (AllDeep (c.run.chainDepth + 1)) (followUp env c type payload) := by
  unfold followUp
  split
  · exact .bind fun _ => .bind fun _ => .pure (by simp [AllDeep])
  · exact .pure (allDeep_nil _)

/-- An action that changes the contact and tells what it has changed. -/
theorem yields_change (call : ServiceCall) (c : ActionContext) (type : EventType)
    (payload : Members) (result : List Event → ActionResult)
    (hresult : ∀ events, (result events).emitted = events) :
    Yields (Deepens c.run) (do
      onValue (← ask env call) fun _ => do return result (← followUp env c type payload)) := by
  refine .bind fun answer => ?_
  cases answer with
  | value a =>
    refine .andThen (P := fun r : ActionResult => AllDeep (c.run.chainDepth + 1) r.emitted) ?_
      fun _ hr => .pure hr
    exact .andThen (yields_followUp c type payload) fun events h =>
      .pure ((hresult events).symm ▸ h)
  | failure e => exact .pure trivial
  | silence => exact .pure trivial

theorem yields_executeInTime (c : ActionContext) (timeout : Double) :
    Yields (Deepens c.run) (executeInTime env c timeout) := by
  have nothing : ∀ r : ActionResult, r.emitted = [] →
      Yields (σ := σ) (Deepens c.run) (Pure.pure (.value r)) :=
    fun r hr => .pure (by rw [Deepens, hr]; exact allDeep_nil _)
  unfold executeInTime
  split
  · exact .pure trivial
  · unfold execute
    split
    · unfold moveStage
      split
      · exact nothing _ rfl
      · exact yields_change _ c _ _ _ fun _ => rfl
    · unfold addTag
      split
      · exact nothing _ rfl
      · exact yields_change _ c _ _ _ fun _ => rfl
    · unfold removeTag
      split
      · exact nothing _ rfl
      · exact yields_change _ c _ _ _ fun _ => rfl
    · unfold sendEmail
      split
      · exact nothing _ rfl
      · refine .bind fun answer => ?_
        cases answer with
        | value => exact nothing _ rfl
        | failure | silence => exact .pure trivial
    · refine .bind fun answer => ?_
      cases answer with
      | value => exact nothing _ rfl
      | failure | silence => exact .pure trivial
    · exact nothing _ rfl

theorem yields_dispatch (c : ActionContext) :
    Yields (fun r => AllDeep (c.run.chainDepth + 1) r.emitted) (dispatch env c) := by
  have rest : ∀ (timeout : Double) (f : Answer ActionResult → Engine σ ActionResult),
      (∀ answer, Deepens c.run answer →
        Yields (fun r => AllDeep (c.run.chainDepth + 1) r.emitted) (f answer)) →
      Yields (fun r => AllDeep (c.run.chainDepth + 1) r.emitted)
        (executeInTime env c timeout >>= f) :=
    fun timeout f hf => .andThen (yields_executeInTime c timeout) hf
  unfold dispatch
  split
  · exact .pure (allDeep_nil _)
  · dsimp only
    split
    · refine .bind fun found => ?_
      split
      · exact .pure (allDeep_nil _)
      · refine rest _ _ fun answer h => ?_
        cases answer with
        | value => exact .pure h
        | failure | silence => exact .pure (allDeep_nil _)
    · refine rest _ _ fun answer h => ?_
      cases answer with
      | value => exact .pure h
      | failure | silence => exact .pure (allDeep_nil _)

/-- What an attempt at an action causes is one deeper than the run. -/
theorem yields_attemptAction (run : Run) (node : Node) (number : Int) :
    Yields (fun r => AllDeep (run.chainDepth + 1) r.emitted)
      (attemptAction env run node number) := by
  refine .bind fun answer => ?_
  split
  · exact .pure (allDeep_nil _)
  · exact .pure (allDeep_nil _)
  · exact yields_dispatch _

end Engine

/-! ## Events of a walk -/

namespace Walk

/-- The events that `x` causes are one deeper than the run. -/
abbrev Emits (run : Run) (x : Walk σ α) : Prop :=
  Leads Engine.Any (fun p _ => AllDeep (run.chainDepth + 1) p.outcome.emitted) x
    (fun _ p _ => AllDeep (run.chainDepth + 1) p.outcome.emitted)
    fun _ p _ => AllDeep (run.chainDepth + 1) p.outcome.emitted

namespace Emits

variable {run : Run} {x : Walk σ α} {f : α → Walk σ β}

theorem bind (hx : Emits run x) (hf : ∀ a, Emits run (f a)) : Emits run (x >>= f) :=
  Leads.bind hx hf

theorem engine (x : Engine σ α) : Emits run (Walk.engine x) :=
  Leads.engine (E := fun p _ => AllDeep (run.chainDepth + 1) p.outcome.emitted)
    (fun _ => .assume (fun _ hp => hp) fun hp => (Engine.Leads.any x).conseq (fun _ _ => trivial)
      (fun _ _ _ => hp) fun _ _ => hp) fun _ _ _ hp => hp

theorem pure (a : α) : Emits (σ := σ) run (Pure.pure a) := Leads.pure a fun _ _ hp => hp

theorem halt : Emits run (Walk.halt : Walk σ α) := Leads.halt fun _ _ hp => hp

theorem progress : Emits (σ := σ) run Walk.progress := Leads.progress fun _ _ hp => hp

theorem update {f : Progress → Progress} (hf : ∀ p, (f p).outcome.emitted = p.outcome.emitted) :
    Emits (σ := σ) run (Walk.update f) :=
  Leads.update fun p _ hp => (hf p).symm ▸ hp

theorem settle (state : Option RunState) : Emits (σ := σ) run (Walk.settle state) :=
  update fun _ => rfl

end Emits

end Walk

namespace Engine

variable {env : Environment σ} {run : Run}

theorem yields_failRun (id error : String) (o : Outcome) :
    Yields (fun o' => o'.emitted = o.emitted) (failRun env id error o) := by
  refine .bind fun done => ?_
  split
  · exact .pure rfl
  · exact .bind fun _ => .pure rfl

theorem emits_failWalk (id error : String) : Walk.Emits run (failWalk env id error) := by
  refine Walk.Leads.bind (B := fun q p _ => q = p ∧ AllDeep (run.chainDepth + 1) p.outcome.emitted)
    (.progress fun _ _ hp => ⟨rfl, hp⟩) fun q => ?_
  refine .bind (B := fun o p _ => AllDeep (run.chainDepth + 1) p.outcome.emitted ∧
    AllDeep (run.chainDepth + 1) o.emitted) (.engine
      (E := fun p _ => AllDeep (run.chainDepth + 1) p.outcome.emitted) (fun p => ?_)
      fun _ _ _ hp => hp) fun o => .update fun _ _ hp => hp.2
  refine .assume (fun _ hw => hw) ?_
  rintro ⟨rfl, hp⟩
  exact (yields_failRun id error q.outcome).conseq (fun _ _ => trivial)
    (fun o _ ho => ⟨hp, ho.symm ▸ hp⟩) fun _ _ => hp

theorem emits_goOn (id : String) (next : Option String) : Walk.Emits run (goOn env id next) := by
  unfold goOn
  cases next with
  | none =>
    refine .bind (.engine _) fun done => ?_
    cases done
    · exact .halt
    · exact .settle _
  | some node =>
    refine .bind (.engine _) fun done => ?_
    cases done
    · exact .halt
    · exact .update fun _ => rfl

theorem emits_executeCondition (g : Graph) (node : Node) (c : Comparison) :
    Walk.Emits run (executeCondition env g run node c) := by
  refine .bind (.engine _) fun number => .bind (.engine _) fun decided => ?_
  split
  · exact .bind (.engine _) fun _ => emits_failWalk _ _
  · exact .bind (.engine _) fun _ => emits_goOn _ _

theorem emits_executeDelay (node : Node) (minutes : Int) :
    Walk.Emits run (executeDelay env run node minutes) := by
  refine .bind (.engine _) fun time => .bind (.engine _) fun resumeAt => ?_
  refine .bind (.engine _) fun done => ?_
  cases done
  · exact .halt
  · exact .bind (.engine _) fun number => .bind (.engine _) fun _ => .settle _

theorem emits_tryOnce {again : Walk σ Unit} (g : Graph) (node : Node) (number : Int)
    (hagain : Walk.Emits run again) :
    Walk.Emits run (tryOnce env g run node number again) := by
  refine Walk.Leads.bind (B := fun r p _ => AllDeep (run.chainDepth + 1) p.outcome.emitted ∧
    AllDeep (run.chainDepth + 1) r.emitted) (.engine
      (E := fun p _ => AllDeep (run.chainDepth + 1) p.outcome.emitted) (fun p => .assume
      (fun _ hp => hp) fun hp => (yields_attemptAction run node number).conseq (fun _ _ => trivial)
        (fun _ _ hr => ⟨hp, hr⟩) fun _ _ => hp) fun _ _ _ hp => hp) fun r => ?_
  refine .assume (fun _ _ hp => hp.2) fun hr => ?_
  refine Walk.Leads.pre (Walk.Emits.bind (.engine _) fun _ => ?_) fun _ _ hp => hp.1
  split
  · exact .bind (Walk.Leads.update fun _ _ hp => hp.append hr) fun _ => emits_goOn _ _
  · split
    · exact emits_failWalk _ _
    · refine .bind (.engine _) fun u => .bind (.engine _) fun delay => ?_
      refine .bind (.engine _) fun _ => .bind (.engine _) fun state => ?_
      split
      · exact hagain
      · exact .bind (.settle _) fun _ => .halt

theorem emits_tryAction (g : Graph) (node : Node) (left : Nat) (number : Int) :
    Walk.Emits run (tryAction env g run node left number) := by
  induction left generalizing number with
  | zero => exact emits_tryOnce g node number .halt
  | succ left ih => exact emits_tryOnce g node number (ih (number + 1))

theorem emits_executeAction (g : Graph) (node : Node) :
    Walk.Emits run (executeAction env g run node) := by
  have used : ∀ (isUsedUp : Bool) (number : Int) (error : String),
      Walk.Emits run (if isUsedUp then failWalk env run.id error
        else
          tryAction env g run node (env.rules.strategy.maxAttempts - number).toNat number) := by
    intro isUsedUp number error
    split
    · exact emits_failWalk _ _
    · exact emits_tryAction g node _ number
  refine .bind (.engine _) fun number => ?_
  dsimp only
  split
  · exact .bind (.engine _) fun _ => .bind (.pure _) fun _ => used _ number _
  · exact .bind (.pure _) fun _ => used _ number _

theorem emits_executeNode (g : Graph) (node : Node) (resuming : Bool) :
    Walk.Emits run (executeNode env g run node resuming) := by
  have delayed : ∀ (isOver : Bool) (minutes : Int), Walk.Emits run
      (if isOver then goOn env run.id (g.nextNodeId? node.id .default)
        else executeDelay env run node minutes) := by
    intro isOver minutes
    split
    · exact emits_goOn _ _
    · exact emits_executeDelay node minutes
  unfold executeNode
  split
  · exact emits_goOn _ _
  · exact emits_executeCondition g node _
  · dsimp only
    split
    · exact .bind (.pure _) fun _ => delayed _ _
    · exact .bind (.engine _) fun _ => delayed _ _
  · exact emits_executeAction g node

theorem emits_whileRunning {x : Walk σ Unit} (hx : Walk.Emits run x) :
    Walk.Emits run (whileRunning env run.id x) := by
  refine .bind (.engine _) fun state => ?_
  split
  · exact hx
  · exact .settle _

theorem emits_takeStep {further : Walk σ Unit} (g : Graph) (hfurther : Walk.Emits run further) :
    Walk.Emits run (takeStep env g run further) := by
  refine .bind (.update fun _ => rfl) fun _ => .bind .progress fun p => ?_
  split
  · exact emits_failWalk _ _
  · refine .bind (emits_executeNode g _ _) fun _ => .bind (.update fun _ => rfl) fun _ => ?_
    refine .bind .progress fun q => ?_
    split
    · exact hfurther
    · exact .pure _

theorem emits_walk (g : Graph) (n : Nat) : Walk.Emits run (walk env g run n) := by
  induction n with
  | zero => exact emits_whileRunning (emits_failWalk _ _)
  | succ n ih => exact emits_whileRunning (emits_takeStep g ih)

theorem emits_walking (run : Run) : Walk.Emits run (walking env run) :=
  .bind (.engine _) fun g => emits_walk g _

theorem yields_conclude (env : Environment σ) (run : Run) (result : Except Halt Unit)
    {p : Progress} {depth : Int} (h : AllDeep depth p.outcome.emitted) :
    Yields (fun o => AllDeep depth o.emitted) (conclude env run result p) := by
  refine leads_conclude_of result p (fun error => ?_) (fun _ _ => h) fun o => ?_
  · refine (yields_failRun _ _ _).post fun o _ (ho : o.emitted = p.outcome.emitted) => ?_
    exact (congrArg (AllDeep depth) ho).mpr h
  · exact .assume (fun _ ho => ho) fun ho => (Leads.any _).conseq (fun _ _ => trivial)
      (fun _ _ _ => ho) fun _ _ => trivial

/-- An event that a run causes is one deeper than the run. -/
theorem yields_walkRun (env : Environment σ) (run : Run) (resuming : Bool) :
    Yields (fun o => AllDeep (run.chainDepth + 1) o.emitted) (walkRun env resuming run) := by
  intro w _
  have hwalking : Walk.Emits run (walking env run) := emits_walking run
  obtain ⟨-, hend⟩ := hwalking ⟨run.node, resuming, { run := run.id }⟩ w (allDeep_nil _)
  rw [run_walkRun]
  rcases hrun : (walking env run).run (⟨run.node, resuming, { run := run.id }⟩, w)
    with ⟨result, p, after⟩
  rw [hrun] at hend
  have hp : AllDeep (run.chainDepth + 1) p.outcome.emitted := by cases result <;> exact hend
  have hconclude := yields_conclude env run result hp
  exact ⟨.single trivial, (hconclude after trivial).2⟩

end Engine

/-! ## Depths of runs -/

theorem Run.Conceded.chainDepth_eq {r r' : Run} (h : r.Conceded r') :
    r'.chainDepth = r.chainDepth := by
  rcases h with rfl | ⟨-, time, rfl⟩ <;> rfl

theorem Run.Write.chainDepth_eq {now : Instant} {r r' : Run} (h : r.Write now r') :
    r'.chainDepth = r.chainDepth := by
  cases h <;> rfl

/-- A run is there, and has this depth. -/
structure HasDepth (id : String) (depth : Int) (db : Database) : Prop where
  stored : ∃ r ∈ db.runs, r.id = id
  depth_eq : ∀ r ∈ db.runs, r.id = id → r.chainDepth = depth

namespace HasDepth

variable {id : String} {depth : Int} {db db' : Database}

theorem of_concedes (h : db.Concedes db') (hd : HasDepth id depth db) : HasDepth id depth db' := by
  obtain ⟨⟨r, hr, hid⟩, hdepth⟩ := hd
  refine ⟨?_, fun r' hr' hid' => ?_⟩
  · obtain ⟨r', hr', hc⟩ := h.exists_after hr
    exact ⟨r', hr', hc.id_eq.trans hid⟩
  · obtain ⟨o, ho, hc⟩ := h.exists_before hr'
    exact hc.chainDepth_eq.trans (hdepth o ho (hc.id_eq.symm.trans hid'))

theorem perform (now : Instant) (c : RunCommand) (hd : HasDepth id depth db) :
    HasDepth id depth (c.perform now db) := by
  obtain ⟨⟨r, hr, hid⟩, hdepth⟩ := hd
  refine ⟨?_, fun r' hr' hid' => ?_⟩
  · obtain ⟨r', hr', heq | hw⟩ := c.exists_perform now hr
    · exact ⟨r', hr', heq ▸ hid⟩
    · exact ⟨r', hr', hw.id_eq.trans hid⟩
  · rcases c.exists_of_mem_perform hr' with
      ⟨o, ho, rfl | hw⟩ | ⟨_, d, contact, node, event, chainDepth, rfl, hfree, rfl⟩
    · exact hdepth r' ho hid'
    · exact hw.chainDepth_eq.trans (hdepth o ho (hw.id_eq.symm.trans hid'))
    · exact absurd (hid.trans hid'.symm) (hfree r hr)

theorem of_createRun {now : Instant} {d : Definition} {contact node : String} {event : Value}
    {run : Run} (h : (db.createRun now id d contact node event depth).1 = some run) :
    HasDepth run.id depth (db.createRun now id d contact node event depth).2 := by
  rcases db.createRun_cases now id d contact node event depth with
    ⟨-, heq⟩ | ⟨hfree, heq⟩ <;> rw [heq] at h ⊢
  · cases h
  · obtain rfl := Option.some.inj h
    refine ⟨⟨_, List.mem_append_right _ List.mem_cons_self, rfl⟩, fun r hr hid => ?_⟩
    rcases List.mem_append.1 hr with hr | hr
    · exact absurd hid (hfree r hr).1
    · rw [List.mem_singleton.1 hr]
      rfl

end HasDepth

theorem Deed.hasDepth {env : Environment σ} {remit : Remit} {w w' : World σ} {id : String}
    {depth : Int} (h : Deed env remit w w') (hw : HasDepth id depth w.db) :
    HasDepth id depth w'.db := by
  rcases h.database with conceded | ⟨d, c, conceded, -, now, hdb⟩ | ⟨d, r, conceded, -, hdb⟩
  · exact hw.of_concedes conceded
  · exact hdb ▸ (hw.of_concedes conceded).perform now c
  · obtain ⟨stored, hdepth⟩ := hw.of_concedes conceded
    exact hdb ▸ ⟨stored, hdepth⟩

/-! ## Events that are handled -/

namespace Engine

variable {env : Environment σ} {depth : Int}

/-- Runs that have the depth. -/
def AllAtDepth (depth : Int) (runs : List Run) (db : Database) : Prop :=
  ∀ run ∈ runs, HasDepth run.id depth db

theorem AllAtDepth.of_deed {remit : Remit} {runs : List Run} {w w' : World σ}
    (h : Deed env remit w w') (hw : AllAtDepth depth runs w.db) : AllAtDepth depth runs w'.db :=
  fun run hrun => h.hasDepth (hw run hrun)

/-- A run that is created has the depth that it is given, and none is only where the database
fails. -/
theorem leads_createRun_depth (d : Definition) (contact node : String) (event : Value)
    (chainDepth : Int) (runs : List Run) :
    Leads (Deed env .anything) (fun w => AllAtDepth chainDepth runs w.db)
      (createRun env d contact node event chainDepth)
      (fun created w => AllAtDepth chainDepth (runs ++ created.toList) w.db)
      fun _ => ¬CanBegin env chainDepth := by
  refine .bind (B := fun _ w => AllAtDepth chainDepth runs w.db) (((doesUnless_interrupt .create
    trivial).keep fun _ _ => AllAtDepth.of_deed).conseq (fun _ hw => ⟨hw, trivial⟩)
      (fun _ _ hw => hw.1) fun _ hw can => hw.2 (can.1.sure _)) fun _ => ?_
  refine .bind (B := fun depth w => depth = chainDepth ∧ AllAtDepth chainDepth runs w.db)
    (leads_bound fun _ _ hfits can => hfits can.2) fun depth => .assume (fun _ hw => hw.1) ?_
  rintro rfl w ⟨-, hw⟩
  have hdeed : Deed env .anything w ((w.named env .run).commanded
      (.create (env.host.freshId .run w.db w.host).1 d contact node event depth)) :=
    .create d contact node event depth trivial
  refine ⟨.single hdeed, fun run hrun => ?_⟩
  rcases List.mem_append.1 hrun with hrun | hrun
  · exact hw.of_deed hdeed run hrun
  · have hcreated : (Database.createRun ((w.named env .run).clock.later 1)
        (env.host.freshId .run w.db w.host).1 d contact node event depth w.db).1 = some run :=
      Option.mem_toList.1 hrun
    exact .of_createRun hcreated

theorem leads_startRuns (e : Event) :
    ∀ (l : List (Definition × Node)) (r : MatchResult),
      Leads (Deed env .anything) (fun w => AllAtDepth e.chainDepth r.runs w.db)
        (startRuns env e l r) (fun r w => AllAtDepth e.chainDepth r.runs w.db)
        fun _ => ¬CanBegin env e.chainDepth
  | [], r => .pure r fun _ hw => hw
  | (d, trigger) :: l, r => by
    unfold startRuns
    split
    · refine .bind (leads_createRun_depth d _ _ _ e.chainDepth r.runs) fun created => ?_
      cases created with
      | none => exact (leads_startRuns e l _).pre fun _ hw => by simpa using hw
      | some run => exact (leads_startRuns e l _).pre fun _ hw => by simpa using hw
    · exact leads_startRuns e l r

/-- The runs that an event begins are as deep as it is. -/
theorem leads_matching_depth (env : Environment σ) (e : Event) :
    Leads (Deed env .anything) (fun _ => True) (matching env e)
      (fun r w => AllAtDepth e.chainDepth r.runs w.db) fun _ => ¬CanBegin env e.chainDepth := by
  refine leads_inTurn _ _ (fun _ => .turn) (fun _ _ _ => trivial) (fun _ _ _ hw => hw)
    (fun _ _ hw => hw) (.bind (B := fun _ _ => True) ?_ fun found =>
      (leads_startRuns e found { event := e.id }).pre fun _ _ => by simp [AllAtDepth])
  refine .bind ((doesUnless_look _ _ trivial).fails fun _ hw can => hw (can.1.sure _)) fun l => ?_
  exact doesUnless_withTriggers l fun _ _ => trivial

/-! ## What is done with events that are caused -/

variable {route route' : List Event → Engine σ Unit}

/-- Routes that agree on events one deeper than a run do the same after it. -/
theorem runFrom_congr (resuming : Bool) {id : String} {w : World σ} (hid : HasDepth id depth w.db)
    (hroute : ∀ es, AllDeep (depth + 1) es → ∀ w, (route es).run w = (route' es).run w) :
    (runFrom env route resuming id).run w = (runFrom env route' resuming id).run w := by
  rcases runFrom_routes env route route' resuming id w with
    heq | ⟨run, o, w', hrun, hrunid, hwalk, h, h'⟩
  · exact heq
  · have hdepth : run.chainDepth = depth :=
      (hid.of_concedes (w.concedes_read env resuming)).depth_eq run hrun hrunid
    have hyields := yields_walkRun env run resuming
    obtain ⟨-, hdeep⟩ := hyields (w.read env resuming) trivial
    rw [hwalk] at hdeep
    rw [h, h', hroute o.emitted (hdepth ▸ hdeep)]

theorem advanceAll_congr (hdoes : ∀ es, Does env (.handling fun _ => True) (route' es))
    (hroute : ∀ es, AllDeep (depth + 1) es → ∀ w, (route es).run w = (route' es).run w)
    (l : List Run) {w : World σ} (hl : AllAtDepth depth l w.db) :
    (advanceAll env route l).run w = (advanceAll env route' l).run w := by
  induction l generalizing w with
  | nil => rfl
  | cons run l ih =>
    have hpath := (does_runFrom (fun _ _ => trivial) hdoes false run.id).path w
    unfold advanceAll
    rw [run_bind, run_bind, runFrom_congr false (hl run List.mem_cons_self) hroute]
    rcases hrun : (runFrom env route' false run.id).run w with ⟨e | o, w'⟩
    · rfl
    · rw [hrun] at hpath
      have hl' : AllAtDepth depth l w'.db :=
        hpath.keep (I := fun w => AllAtDepth depth l w.db) (fun _ _ => AllAtDepth.of_deed)
          fun r hr => hl r (List.mem_cons_of_mem _ hr)
      dsimp only
      rw [run_bind, run_bind, ih hl']

theorem handleWith_congr (e : Event) (hdoes : ∀ es, Does env (.handling fun _ => True) (route' es))
    (hroute : ∀ es, AllDeep (e.chainDepth + 1) es → ∀ w, (route es).run w = (route' es).run w)
    (w : World σ) : (handleWith env route e).run w = (handleWith env route' e).run w := by
  unfold handleWith
  rw [run_interrupt_bind, run_interrupt_bind]
  split
  · rfl
  · split
    · rfl
    · rw [run_bind, run_bind]
      have hmatching := leads_matching_depth env e
      obtain ⟨-, hend⟩ := hmatching (w.interrupted env .handleEvent) trivial
      rw [← matching]
      rcases hrun : (matching env e).run (w.interrupted env .handleEvent) with ⟨f | r, w'⟩
      · rfl
      · rw [hrun] at hend
        dsimp only
        rw [run_bind, run_bind, advanceAll_congr hdoes hroute r.runs hend]

/-- An event that is too deep causes nothing. -/
theorem handleWith_of_tooDeep {e : Event} (h : env.rules.maxChainDepth < e.chainDepth)
    (w : World σ) : (handleWith env route e).run w = (handleWith env route' e).run w := by
  unfold handleWith
  rw [run_interrupt_bind, run_interrupt_bind, if_pos h, if_pos h]

theorem routeEach_congr {handle handle' : Event → Engine σ MatchResult} (es : List Event)
    (h : ∀ e ∈ es, ∀ w, (handle e).run w = (handle' e).run w) (w : World σ) :
    (routeEach handle es).run w = (routeEach handle' es).run w := by
  induction es generalizing w with
  | nil => rfl
  | cons e es ih =>
    unfold routeEach
    rw [run_bind, run_bind, h e List.mem_cons_self w]
    rcases (handle' e).run w with ⟨f | r, w'⟩
    · rfl
    · exact ih (fun e' he' => h e' (List.mem_cons_of_mem _ he')) w'

/-- Handles an event and what follows from it on the next levels, as many as are given. What comes
further down is left to `beyond`. -/
def handleNested (env : Environment σ) (beyond : Event → Engine σ MatchResult) :
    Nat → Event → Engine σ MatchResult
  | 0, e => beyond e
  | levels + 1, e => handleWith env (routeEach (handleNested env beyond levels)) e

theorem levelsBelow_of_le {rules : Rules} {depth : Int} (h : depth ≤ rules.maxChainDepth) :
    levelsBelow rules depth = levelsBelow rules (depth + 1) + 1 := by
  simp only [levelsBelow]
  omega

/-- An event that is not too deep is handled with what follows from it on the levels below. -/
theorem handleEvent_eq_handleWith {e : Event} (h : e.chainDepth ≤ env.rules.maxChainDepth) :
    handleEvent env e = handleWith env
      (routeEach (handleWithin env (levelsBelow env.rules (e.chainDepth + 1)))) e := by
  rw [handleEvent, levelsBelow_of_le h, handleWithin]

/-- An event is handled as if everything that follows from it was handled the same way. -/
theorem handleEvent_eq (e : Event) (w : World σ) :
    (handleEvent env e).run w = (handleWith env (routeFollowUps env) e).run w := by
  by_cases h : e.chainDepth ≤ env.rules.maxChainDepth
  · rw [handleEvent_eq_handleWith h]
    refine handleWith_congr e (does_routeFollowUps fun _ _ => trivial) (fun es hes w => ?_) w
    refine routeEach_congr es (fun e' he' w => ?_) w
    rw [handleEvent, hes e' he']
  · rw [handleEvent, show levelsBelow env.rules e.chainDepth = 0 by simp only [levelsBelow]; omega]
    exact handleWith_of_tooDeep (Int.not_le.1 h) w

/-- Nothing follows from an event on more levels than the greatest depth allows. -/
theorem handleNested_eq (beyond : Event → Engine σ MatchResult) (levels : Nat) (e : Event)
    (h : levelsBelow env.rules e.chainDepth < levels) (w : World σ) :
    (handleNested env beyond levels e).run w = (handleEvent env e).run w := by
  induction levels generalizing e w with
  | zero => exact absurd h (Nat.not_lt_zero _)
  | succ levels ih =>
    rw [handleEvent_eq, handleNested]
    by_cases hdepth : e.chainDepth ≤ env.rules.maxChainDepth
    · rw [levelsBelow_of_le hdepth] at h
      refine handleWith_congr e (does_routeFollowUps fun _ _ => trivial) (fun es hes w => ?_) w
      exact routeEach_congr es (fun e' he' w => ih e' (by rw [hes e' he']; omega) w) w
    · exact handleWith_of_tooDeep (Int.not_le.1 hdepth) w

/-! ## Attempts -/

/-- After the last attempt there is no other one. -/
theorem tryOnce_of_last {again again' : Walk σ Unit} (g : Graph) (run : Run) (node : Node)
    {number : Int} (h : env.rules.strategy.maxAttempts ≤ number) :
    tryOnce env g run node number again = tryOnce env g run node number again' := by
  have hlast : ∀ failure retryable,
      env.rules.strategy.shouldRetry number failure retryable = false := by
    intro failure retryable
    simp [RetryStrategy.shouldRetry, h]
  unfold tryOnce
  simp only [hlast, Bool.not_false, if_true]

/-- The attempts at an action end by themselves. -/
theorem tryAction_eq (g : Graph) (run : Run) (node : Node) {left : Nat} {number : Int}
    (h : (env.rules.strategy.maxAttempts - number).toNat ≤ left) :
    tryAction env g run node left number =
      tryAction env g run node (env.rules.strategy.maxAttempts - number).toNat number := by
  induction left generalizing number with
  | zero => rw [Nat.le_zero.1 h]
  | succ left ih =>
    by_cases hlast : env.rules.strategy.maxAttempts ≤ number
    · rw [show (env.rules.strategy.maxAttempts - number).toNat = 0 by omega]
      exact tryOnce_of_last g run node hlast
    · obtain ⟨n, hn⟩ : ∃ n, (env.rules.strategy.maxAttempts - number).toNat = n + 1 :=
        ⟨_, (Nat.succ_pred (by omega)).symm⟩
      rw [hn, tryAction, tryAction, ih (by omega),
        show (env.rules.strategy.maxAttempts - (number + 1)).toNat = n by omega]

/-! ## Events end -/

/-- With a database that does not fail, an event is handled without a failure. -/
theorem leads_handleEvent_sure (ds : List Definition) {e : Event}
    (can : CanBegin env e.chainDepth) :
    Leads Any (Kept (fun _ _ => True) ds) (handleEvent env e) (fun _ _ => True) fun _ => False := by
  have hcall : Leads (Step env (fun _ _ => True) .own) (Kept (fun _ _ => True) ds)
      (interrupt env .handleEvent) (fun _ => Kept (fun _ _ => True) ds) fun _ => False :=
    leads_interrupt_kept can.1 .handleEvent
  have hgoes : Goes env (fun _ _ => True) .own ds (matching env e) := goes_matching e
  have hmatching := (hgoes.and (leads_matching_depth env e)).steps (T := Any) fun _ _ _ => trivial
  have hhandle : Leads Any (Kept (fun _ _ => True) ds) (handleWith env (routeFollowUps env) e)
      (fun _ _ => True) fun _ => False := by
    refine .bind (hcall.steps fun _ _ _ => trivial) fun _ => ?_
    split
    · exact .pure _ fun _ _ => trivial
    · refine .bind (hmatching.conseq (fun w hw => ⟨hw, trivial⟩) (fun _ _ hw => hw)
        fun w hw => hw.2 can) fun r => ?_
      refine .bind (B := fun _ _ => True) ?_ fun outcomes => .pure _ fun _ _ => trivial
      exact ((leads_advanceAll_rests can.1 r.runs).steps fun _ _ _ => trivial).conseq
        (fun w hw => ⟨hw.1, fun run hrun => (hw.2 run hrun).stored⟩) (fun _ _ _ => trivial)
        fun _ hw => hw
  intro w hw
  rw [handleEvent_eq]
  exact hhandle w hw

end Engine

/-! ## Histories -/

/-- The runs are not deeper than a limit. -/
def Database.Shallow (limit : Int) (db : Database) : Prop := ∀ r ∈ db.runs, r.chainDepth ≤ limit

theorem Deed.shallow {env : Environment σ} {limit : Int} {w w' : World σ}
    (h : Deed env (.handling (· ≤ limit)) w w') (hw : w.db.Shallow limit) :
    w'.db.Shallow limit := by
  have hconcede : ∀ d, w.db.Concedes d → d.Shallow limit := by
    intro d conceded r' hr'
    obtain ⟨r, hr, hc⟩ := conceded.exists_before hr'
    exact hc.chainDepth_eq ▸ hw r hr
  rcases h.database with conceded | ⟨d, c, conceded, ordered, now, hdb⟩ | ⟨d, r, conceded, -, hdb⟩
  · exact hconcede _ conceded
  · rw [hdb]
    intro r' hr'
    rcases c.exists_of_mem_perform hr' with
      ⟨r, hr, rfl | hwrite⟩ | ⟨id, d, contact, node, event, chainDepth, rfl, -, rfl⟩
    · exact hconcede d conceded r' hr
    · exact hwrite.chainDepth_eq ▸ hconcede d conceded r hr
    · exact ordered
  · rw [hdb]
    exact hconcede d conceded

namespace World.Pristine

variable {env : Environment σ} {w : World (σ × List Sighting)}

/-- What deeds and edits keep of a database is true throughout a history of requests. -/
theorem forall_trace_serveAll (h : w.Pristine) (depths : Int → Prop) {P : Database → Prop}
    (shallow : ∀ depth ≤ env.rules.maxChainDepth, depths depth) (hzero : depths 0) (hfirst : P w.db)
    (hdeed : ∀ w₁ w₂, Deed env.observed (.handling depths) w₁ w₂ → P w₁.db → P w₂.db)
    (hedit : ∀ names db db', Database.Revises names db db' → P db → P db')
    (requests : List Request) : ∀ d ∈ (serveAll env.observed w requests).trace, P d := by
  refine (keep_serveAll_of (I := fun w => (w.db.definitions.map (·.id)).Nodup ∧ ∀ d ∈ w.trace, P d)
    (fun q w hw => q.keep_perform env.observed shallow hzero
      (fun w₁ w₂ h => h.forall_trace (hdeed w₁ w₂ h)) (fun w db hdb hw d hd => ?_)
      (fun w₁ w₂ hdb hhost hw => ?_) hw) requests
    ⟨h.definitions, by simpa [h.trace_eq] using hfirst⟩).2
  · rcases List.mem_append.1 hd with hd | hd
    · exact hw d (List.mem_append_left _ hd)
    · exact List.mem_singleton.1 hd ▸ hedit _ _ db hdb (hw _ w.db_mem_trace)
  · exact World.trace_congr hdb hhost ▸ hw

end World.Pristine

/-! ## Workflows that trigger each other -/

namespace Engine

/-- Chains of events end, whatever the workflows are and however they trigger each other. With a
database that does not fail, an event is handled without a failure. What would be done with events
so many levels below it as lie above the greatest depth makes no difference, so there are none; and
the levels on which follow-up events are handled are no limit of their own, since an event is
handled as if each event that follows was handled the same way. Nor is the number of attempts at
an action: allowing more changes nothing. And in whatever order workflows are created, edited,
published and archived, events are handled, runs are started by hand, resumed, recovered and
cancelled, and whatever fails meanwhile, no run is ever deeper than the greatest depth. -/
theorem chains_end (env : Environment σ) (grounded : 0 ≤ env.rules.maxChainDepth) :
    (∀ (e : Event) (w : World σ), env.host.Reliable → Database.fitsColumn e.chainDepth →
      Distinct w → (∀ r ∈ w.db.records, 0 < r.attempt) →
      ∃ r w', (handleEvent env e).run w = (.ok r, w')) ∧
    (∀ (beyond : Event → Engine σ MatchResult) (levels : Nat) (e : Event),
      max 0 (env.rules.maxChainDepth - e.chainDepth + 1) < levels →
      ∀ w, (handleNested env beyond levels e).run w = (handleEvent env e).run w) ∧
    (∀ (e : Event) (w : World σ),
      (handleEvent env e).run w = (handleWith env (routeFollowUps env) e).run w) ∧
    (∀ (g : Graph) (run : Run) (node : Node) (left : Nat) (number : Int),
      (env.rules.strategy.maxAttempts - number).toNat ≤ left →
      tryAction env g run node left number =
        tryAction env g run node (env.rules.strategy.maxAttempts - number).toNat number) ∧
    ∀ (w : World (σ × List Sighting)), w.Pristine → ∀ requests,
      ∀ db ∈ (serveAll env.observed w requests).trace,
        ∀ r ∈ db.runs, r.chainDepth ≤ env.rules.maxChainDepth := by
  refine ⟨fun e w reliable fits distinct counted => ?_, fun beyond levels e hlevels w => ?_,
    handleEvent_eq, fun g run node left number h => tryAction_eq g run node h,
    fun w pristine requests => ?_⟩
  · have hkept : Kept (fun _ _ => True) w.db.definitions w :=
      ⟨⟨distinct, counted, fun _ _ _ _ => trivial, fun _ _ => trivial⟩, rfl⟩
    have hsure := leads_handleEvent_sure w.db.definitions ⟨reliable, fits⟩
    obtain ⟨-, hend⟩ := hsure w hkept
    rcases hrun : (handleEvent env e).run w with ⟨f | r, w'⟩
    · rw [hrun] at hend
      exact hend.elim
    · exact ⟨r, w', rfl⟩
  · refine handleNested_eq beyond levels e ?_ w
    rw [levelsBelow]
    omega
  · refine pristine.forall_trace_serveAll (· ≤ env.rules.maxChainDepth)
      (P := Database.Shallow env.rules.maxChainDepth) (fun _ h => h) grounded ?_
      (fun _ _ => Deed.shallow) (fun _ _ _ hdb h r hr => h r (hdb.runs_eq ▸ hr)) requests
    simp [Database.Shallow, pristine.runs]

/-- Whoever is given a tag is given it again. -/
def echo : Definition :=
  { (default : Definition) with
    id := "echo-1"
    workflow := "echo"
    organization := "o-1"
    status := .known .published
    version := 1
    triggerType := some "tag_added"
    graph := .obj [
      ("nodes", .list [
        .obj [("id", .str "start"), ("type", .str "trigger"),
          ("data", .obj [("triggerType", .str "tag_added")])],
        .obj [("id", .str "tag"), ("type", .str "add_tag"),
          ("data", .obj [("config", .obj [("tag_id", .str "t-1")])])]]),
      ("edges", .list [.obj [("source", .str "start"), ("target", .str "tag")]])] }

/-- Nothing fails, tags are added, and events may follow on two levels. -/
def obliging : Environment Nat where
  host := {
    freshId := fun _ _ n => (String.ofList (List.replicate n 'i'), n + 1)
    draw := fun n => (.zero, n)
    storage := fun _ _ n => (⟨[], none⟩, n)
    service := fun call _ n => match call with
      | .getContact .. => (⟨[], .value (some greeted)⟩, n)
      | .addTag .. => (⟨[], .value ()⟩, n)
      | _ => (⟨[], .silence⟩, n)
    wait := fun _ _ n => ([], n) }
  rules := { undisturbed.rules with maxChainDepth := 2 }

/-- A world in which the tag was never added. -/
def unheard : World Nat where
  db := { Database.empty with definitions := [echo] }
  clock := ⟨1⟩
  graphs := []
  turns := []
  calls := []
  waits := []
  host := 0

/-- The tag is added for the first time. -/
def tagged : Event where
  type := .tagAdded
  organization := "o-1"
  contact := "c-1"
  payload := []
  chainDepth := 0
  id := "e-1"
  occurredAt := ⟨1⟩

/-- A workflow that triggers itself begins three runs, the last one as deep as allowed, and no event
is handled four levels below the first. -/
theorem chains_end_of_echo :
    0 ≤ obliging.rules.maxChainDepth ∧ obliging.host.Reliable ∧ unheard.observed.Pristine ∧
    (∃ r w', (handleEvent obliging tagged).run unheard = (.ok r, w') ∧
      ∀ beyond, (handleNested obliging beyond 4 tagged).run unheard = (.ok r, w')) ∧
    (serveAll obliging.observed unheard.observed [.operate (.event tagged)]).db.runs.map
      (·.chainDepth) = [0, 1, 2] ∧
    ∀ db ∈ (serveAll obliging.observed unheard.observed [.operate (.event tagged)]).trace,
      ∀ r ∈ db.runs, r.chainDepth ≤ 2 := by
  have grounded : 0 ≤ obliging.rules.maxChainDepth := by decide
  have reliable : obliging.host.Reliable := fun _ _ _ => rfl
  have pristine : unheard.observed.Pristine := by
    constructor
    · decide
    all_goals rfl
  obtain ⟨hends, hnested, -, -, hshallow⟩ := chains_end obliging grounded
  obtain ⟨r, w', hrun⟩ := hends tagged unheard reliable (by decide) List.nodup_nil
    fun r hr => absurd hr List.not_mem_nil
  exact ⟨grounded, reliable, pristine,
    ⟨r, w', hrun, fun beyond => (hnested beyond 4 tagged (by decide) unheard).trans hrun⟩,
    by decide +kernel, hshallow unheard.observed pristine [.operate (.event tagged)]⟩

end Engine

end CrmAutomation
