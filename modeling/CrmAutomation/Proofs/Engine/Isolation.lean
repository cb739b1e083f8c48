import CrmAutomation.Proofs.Engine.Advance
import CrmAutomation.Proofs.Engine.Likeness
import CrmAutomation.Proofs.Store.Versions

/-!
# What is done for an organization

Whatever the engine does with a run or an event of an organization is the same in worlds that are
alike for it (`Engine.same_runFrom`, `Engine.same_handleEvent`). A run is known by its id once it
was found in the database, so an advance carries with it that its run is one of the organization's
(`Walk.Same`, by one lemma for each part of the executor), and so are the events that it hands on.
-/

namespace CrmAutomation

variable {σ α β : Type}

namespace Engine

variable {b : Border σ} {K : String → Prop} {env : Environment σ} (suits : b.Suits env.host)

/-! ## Attempts at actions -/

/-- What an action brings, if it brings something, has only events of the organization. -/
def BringsOwn (o : String) (answer : Answer ActionResult) : Prop :=
  ∀ r, answer = .value r → EventsOf o r.emitted

theorem bringsOwn_value {o : String} {r : ActionResult} (h : EventsOf o r.emitted) :
    BringsOwn o (.value r) := by
  rintro _ ⟨⟩
  exact h

theorem same_onValue {answer : Answer α} {f : α → Engine σ ActionResult}
    (hf : ∀ a, Same b K (f a) fun r => EventsOf b.organization r.emitted) :
    Same b K (onValue answer f) (BringsOwn b.organization) := by
  cases answer with
  | value a => exact .bind (hf a) fun r hr => .pure (bringsOwn_value hr)
  | failure e => exact .pure nofun
  | silence => exact .pure nofun

section Actions

variable {c : ActionContext} (own : c.run.organization = b.organization)

include suits own

theorem same_followUp (type : EventType) (payload : Members) :
    Same b K (followUp env c type payload) (EventsOf b.organization) := by
  unfold followUp
  split
  · refine .bind (same_freshId suits .event) fun id _ =>
      .bind same_now fun time _ => .pure fun e he => ?_
    rw [List.mem_singleton.1 he]
    exact own
  · exact .pure (eventsOf_nil _)

/-- An action that changes the contact and tells what it has changed. -/
theorem same_change {call : ServiceCall} (hcall : call.organization? = some b.organization)
    (type : EventType) (payload : Members) {result : List Event → ActionResult}
    (hresult : ∀ es, (result es).emitted = es) :
    Same b K (do onValue (← ask env call) fun _ => do return result (← followUp env c type payload))
      (BringsOwn b.organization) :=
  .bind (same_ask suits hcall) fun _ _ => same_onValue fun _ =>
    .bind (same_followUp suits own type payload) fun es hes => .pure (by rw [hresult]; exact hes)

theorem same_execute : Same b K (execute env c) (BringsOwn b.organization) := by
  have nothing : ∀ r : ActionResult, r.emitted = [] →
      Same b K (Pure.pure (.value r) : Engine σ (Answer ActionResult))
        (BringsOwn b.organization) :=
    fun r hr => .pure (bringsOwn_value (hr ▸ eventsOf_nil _))
  unfold execute
  split
  · unfold moveStage
    split
    · exact nothing _ rfl
    · exact same_change suits own (by exact congrArg some own) _ _ fun _ => rfl
  · unfold addTag
    split
    · exact nothing _ rfl
    · exact same_change suits own (by exact congrArg some own) _ _ fun _ => rfl
  · unfold removeTag
    split
    · exact nothing _ rfl
    · exact same_change suits own (by exact congrArg some own) _ _ fun _ => rfl
  · unfold sendEmail
    split
    · exact nothing _ rfl
    · refine .bind (same_ask suits (by exact congrArg some own)) fun answer _ => ?_
      cases answer with
      | value id => exact nothing _ rfl
      | failure f => exact .pure nofun
      | silence => exact .pure nofun
  · unfold callWebhook
    refine .bind (same_ask suits (by exact congrArg some own)) fun answer _ => ?_
    cases answer with
    | value status => exact nothing _ rfl
    | failure f => exact .pure nofun
    | silence => exact .pure nofun
  · exact nothing _ rfl

theorem same_executeInTime (timeout : Double) :
    Same b K (executeInTime env c timeout) (BringsOwn b.organization) := by
  unfold executeInTime
  split
  · exact .pure nofun
  · exact same_execute suits own

omit own in
/-- What an action does that is not to be done twice. -/
theorem same_unlessDone (known : K c.run.id) {p : Prop} [Decidable p] {x : Engine σ ActionResult}
    (hx : Same b K x fun r => EventsOf b.organization r.emitted) :
    Same b K (if p then do
        if ← look env .hasSuccess fun db => db.hasSuccess c.run.id c.node.id then
          return .alreadyDone
        else x
      else x) fun r => EventsOf b.organization r.emitted := by
  split
  · refine .bind (same_look suits .hasSuccess (Q := fun _ => True) fun _ _ h => ?_) fun done _ => ?_
    · exact ⟨h.query (q := fun db => db.hasSuccess c.run.id c.node.id)
        ((h.known _ known).hasSuccess_ownedBy _) ((h.known_right known).hasSuccess_ownedBy _),
        trivial⟩
    · split
      · exact .pure (eventsOf_nil _)
      · exact hx
  · exact hx

theorem same_dispatch (known : K c.run.id) :
    Same b K (dispatch env c) fun r => EventsOf b.organization r.emitted := by
  unfold dispatch
  split
  · exact .pure (eventsOf_nil _)
  · refine same_unlessDone suits known (.bind (same_executeInTime suits own _)
      fun answer hanswer => ?_)
    cases answer with
    | value r => exact .pure (hanswer r rfl)
    | failure f => exact .pure (eventsOf_nil _)
    | silence => exact .pure (eventsOf_nil _)

end Actions

include suits in
theorem same_executeFrom {x : Engine σ α} (s : RetryStrategy) (hx : Same b K x fun _ => True)
    (left : Nat) (number : Int) :
    Same b K (ExceptT.mk (s.executeFrom (draw env) (fun _ _ _ => pure ()) x.run left number))
      fun _ => True := by
  induction left generalizing number with
  | zero => exact hx
  | succ left ih =>
    intro w v h
    obtain ⟨hresult, -, halike⟩ := hx w v h
    change SameEnd b K _ (s.executeFrom _ _ x.run (left + 1) number w)
      (s.executeFrom _ _ x.run (left + 1) number v)
    rw [run_executeFrom_succ, run_executeFrom_succ]
    rcases hw : x.run w with ⟨f | a, w'⟩ <;> rcases hv : x.run v with ⟨f' | a', v'⟩ <;>
      rw [hw, hv] at hresult halike <;> cases hresult
    · have hhost : w'.host = v'.host := halike.host
      have hdrawn : World.Alike b K { w' with host := (env.host.draw w'.host).2 }
          { v' with host := (env.host.draw w'.host).2 } :=
        { halike with host := rfl, state := suits.left.draw w'.host halike.state }
      dsimp only
      rw [← hhost]
      split
      · cases s.delay (env.host.draw w'.host).1 number with
        | error e => exact ⟨rfl, by rintro _ ⟨⟩, hdrawn⟩
        | ok delay => exact ih (number + 1) _ _ hdrawn
      · exact ⟨rfl, by rintro _ ⟨⟩, halike⟩
    · exact ⟨rfl, fun _ _ => trivial, halike⟩

section Attempts

variable {run : Run} (own : run.organization = b.organization)

include suits own

theorem same_attemptAction (known : K run.id) (node : Node) (number : Int) :
    Same b K (attemptAction env run node number) fun r => EventsOf b.organization r.emitted := by
  unfold attemptAction
  refine .bind (same_demand suits (by exact congrArg some own)).attempt fun answer _ => ?_
  split
  · exact .pure (eventsOf_nil _)
  · exact .pure (eventsOf_nil _)
  · exact same_dispatch suits own known

theorem same_decideCondition (c : Comparison) :
    Same b K (decideCondition env run c) fun _ => True := by
  refine .bind (same_executeFrom suits _ (same_demand suits (by exact congrArg some own)) _ _)
    fun contact _ => ?_
  split
  · exact .throw _
  · split
    · exact .pure trivial
    · exact .throw _

end Attempts

/-! ## Walks -/

section Walks

variable {run : Run} (known : K run.id)

include suits known

theorem same_stateOf : Same b K (stateOf env run.id) fun _ => True :=
  same_look suits .getState fun _ _ h =>
    ⟨h.query (q := fun db => (db.run? run.id).map (·.state))
      (congrArg _ (h.left.run?_ownedBy (h.lacks known)))
      (congrArg _ (h.right.run?_ownedBy (h.lacks known))), trivial⟩

theorem same_failRun (error : String) {o : Outcome} (ho : o.Own b) :
    Same b K (failRun env run.id error o) (Outcome.Own b) := by
  refine .bind (same_stored suits .fail (fun _ _ h => h.lacks known) (fun _ => rfl)
    fun _ _ => ⟨rfl, rfl, rfl⟩) fun done _ => ?_
  split
  · exact .pure ho
  · exact .bind (same_stateOf suits known) fun _ _ => .pure ho

theorem same_failWalk (error : String) :
    Walk.Same b K (failWalk env run.id error) fun _ => True :=
  .bind .progress fun _ hp => .bind (.engine (same_failRun suits known error hp))
    fun _ ho => .update fun _ _ => ho

theorem same_goOn (next : Option String) :
    Walk.Same b K (goOn env run.id next) fun _ => True := by
  unfold goOn
  cases next with
  | none =>
    refine .bind (.engine (same_stored suits .complete (fun _ _ h => h.lacks known) (fun _ => rfl)
      fun _ _ => ⟨rfl, rfl, rfl⟩)) fun done _ => ?_
    cases done
    · exact .halt
    · exact .settle _
  | some node =>
    refine .bind (.engine (same_stored suits .moveTo (fun _ _ h => h.lacks known) (fun _ => rfl)
      fun _ _ => ⟨rfl, rfl, rfl⟩)) fun done _ => ?_
    cases done
    · exact .halt
    · exact .update fun _ hp => hp

theorem same_nextAttempt (node : String) :
    Same b K (nextAttempt env run.id node) fun _ => True :=
  same_look suits .nextAttempt fun _ _ h =>
    ⟨h.query (q := fun db => db.nextAttempt run.id node)
      ((h.known _ known).nextAttempt_ownedBy _) ((h.known_right known).nextAttempt_ownedBy _),
      trivial⟩

theorem same_hasSuccess (node : String) :
    Same b K (hasSuccess env run.id node) fun _ => True :=
  same_look suits .hasSuccess fun _ _ h =>
    ⟨h.query (q := fun db => db.hasSuccess run.id node)
      ((h.known _ known).hasSuccess_ownedBy _) ((h.known_right known).hasSuccess_ownedBy _),
      trivial⟩

theorem same_executeDelay (node : Node) (minutes : Int) :
    Walk.Same b K (executeDelay env run node minutes) fun _ => True := by
  refine .bind (.engine same_now) fun time _ => ?_
  refine .bind (.engine (same_ofExcept _)) fun resumeAt _ => ?_
  refine .bind (.engine (same_stored suits .suspend (fun _ _ h => h.lacks known) (fun _ => rfl)
    fun _ _ => ⟨rfl, rfl, rfl⟩)) fun done _ => ?_
  split
  · refine .bind (.engine (same_nextAttempt suits known _)) fun number _ => ?_
    exact .bind (.engine (same_record suits _ _ _ _ _ _ known)) fun _ _ => .settle _
  · exact .halt

variable (own : run.organization = b.organization)

include own

theorem same_executeCondition (g : Graph) (node : Node) (c : Comparison) :
    Walk.Same b K (executeCondition env g run node c) fun _ => True := by
  refine .bind (.engine (same_nextAttempt suits known _)) fun number _ => ?_
  refine .bind (.engine (same_decideCondition suits own c).attempt) fun decided _ => ?_
  split
  · exact .bind (.engine (same_record suits _ _ _ _ _ _ known)) fun _ _ =>
      same_failWalk suits known _
  · exact .bind (.engine (same_record suits _ _ _ _ _ _ known)) fun _ _ => same_goOn suits known _

theorem same_tryOnce {again : Walk σ Unit} (g : Graph) (node : Node) (number : Int)
    (hagain : Walk.Same b K again fun _ => True) :
    Walk.Same b K (tryOnce env g run node number again) fun _ => True := by
  refine .bind (.engine (same_attemptAction suits own known node number)) fun r hr => ?_
  refine .bind (.engine (same_record suits _ _ _ _ _ _ known)) fun _ _ => ?_
  split
  · exact .bind (.update fun _ hp => ⟨hp.1.append hr, hp.2⟩) fun _ _ => same_goOn suits known _
  · split
    · exact same_failWalk suits known _
    · refine .bind (.engine (same_draw suits)) fun u _ => ?_
      refine .bind (.engine (same_ofExcept _)) fun delay _ => ?_
      refine .bind (.engine (same_wait suits delay)) fun _ _ => ?_
      refine .bind (.engine (same_stateOf suits known)) fun state _ => ?_
      split
      · exact hagain
      · exact .bind (.settle _) fun _ _ => .halt

theorem same_tryAction (g : Graph) (node : Node) (left : Nat) (number : Int) :
    Walk.Same b K (tryAction env g run node left number) fun _ => True := by
  induction left generalizing number with
  | zero => exact same_tryOnce suits known own g node number .halt
  | succ left ih => exact same_tryOnce suits known own g node number (ih (number + 1))

theorem same_executeAction (g : Graph) (node : Node) :
    Walk.Same b K (executeAction env g run node) fun _ => True := by
  have used : ∀ (isUsedUp : Bool) (number : Int) (error : String),
      Walk.Same b K (if isUsedUp then failWalk env run.id error
        else
          tryAction env g run node (env.rules.strategy.maxAttempts - number).toNat number)
        fun _ => True := by
    intro isUsedUp number error
    split
    · exact same_failWalk suits known _
    · exact same_tryAction suits known own g node _ number
  refine .bind (.engine (same_nextAttempt suits known _)) fun number _ => ?_
  dsimp only
  split
  · exact .bind (.engine (same_hasSuccess suits known _)) fun _ _ =>
      .bind (.pure (Q := fun _ => True) trivial) fun _ _ => used _ number _
  · exact .bind (.pure (Q := fun _ => True) trivial) fun _ _ => used _ number _

theorem same_executeNode (g : Graph) (node : Node) (resuming : Bool) :
    Walk.Same b K (executeNode env g run node resuming) fun _ => True := by
  have delayed : ∀ (isOver : Bool) (minutes : Int), Walk.Same b K
      (if isOver then goOn env run.id (g.nextNodeId? node.id .default)
        else executeDelay env run node minutes) fun _ => True := by
    intro isOver minutes
    split
    · exact same_goOn suits known _
    · exact same_executeDelay suits known node minutes
  unfold executeNode
  split
  · exact same_goOn suits known _
  · exact same_executeCondition suits known own g node _
  · dsimp only
    split
    · exact .bind (.pure (Q := fun _ => True) trivial) fun _ _ => delayed _ _
    · exact .bind (.engine (same_hasSuccess suits known _)) fun _ _ => delayed _ _
  · exact same_executeAction suits known own g node

omit own in
theorem same_whileRunning {x : Walk σ Unit} (hx : Walk.Same b K x fun _ => True) :
    Walk.Same b K (whileRunning env run.id x) fun _ => True := by
  refine .bind (.engine (same_stateOf suits known)) fun state _ => ?_
  split
  · exact hx
  · exact .settle _

theorem same_takeStep {further : Walk σ Unit} (g : Graph)
    (hfurther : Walk.Same b K further fun _ => True) :
    Walk.Same b K (takeStep env g run further) fun _ => True := by
  refine .bind (.update fun _ hp => hp) fun _ _ => .bind .progress fun p _ => ?_
  split
  · exact same_failWalk suits known _
  · refine .bind (same_executeNode suits known own g _ _) fun _ _ =>
      .bind (.update fun _ hp => hp) fun _ _ => .bind .progress fun q _ => ?_
    split
    · exact hfurther
    · exact .pure trivial

theorem same_walk (g : Graph) (n : Nat) :
    Walk.Same b K (walk env g run n) fun _ => True := by
  induction n with
  | zero => exact same_whileRunning suits known (same_failWalk suits known _)
  | succ n ih => exact same_whileRunning suits known (same_takeStep suits known own g ih)

end Walks

/-! ## Graphs -/

include suits in
theorem same_graphOf {id : String} (lacks : b.others.LacksDefinition id) :
    Same b K (graphOf env id) fun _ => True := by
  refine .get fun w v h => ?_
  rw [h.graphs id lacks]
  cases cached? id v.graphs with
  | some g => exact Same.pure trivial w v h
  | none =>
    refine Same.bind (same_look suits .getDefinition (Q := fun _ => True) fun d e h => ?_)
      (fun found _ => ?_) w v h
    · exact ⟨h.query (q := fun db => db.definition? id) (h.left.definition?_ownedBy lacks)
        (h.right.definition?_ownedBy lacks), trivial⟩
    · cases found with
      | none => exact .throw _
      | some d =>
        exact .bind (same_ofExcept _) fun g _ =>
          .bind (same_remember g lacks) fun _ _ => .pure trivial

theorem same_usableGraph? {d : Definition} (lacks : b.others.LacksDefinition d.id) :
    Same (σ := σ) b K (usableGraph? d) fun _ => True := by
  refine .get fun w v h => ?_
  rw [h.graphs d.id lacks]
  cases cached? d.id v.graphs with
  | some g => exact Same.pure trivial w v h
  | none =>
    cases parse d.graph with
    | error e => exact Same.pure trivial w v h
    | ok g => exact Same.bind (same_remember g lacks) (fun _ _ => .pure trivial) w v h

/-! ## Runs -/

section Runs

include suits

theorem same_walking {run : Run} (known : K run.id) (own : run.Own b.others b.organization) :
    Walk.Same b K (walking env run) fun _ => True :=
  .bind (.engine (same_graphOf suits own.definition)) fun g _ =>
    same_walk suits known own.organization_eq g _

theorem same_conclude {run : Run} (known : K run.id) (result : Except Halt Unit) {p : Progress}
    (hp : p.outcome.Own b) : Same b K (conclude env run result p) (Outcome.Own b) := by
  have asked : ∀ o : Outcome, o.Own b → Same b K (do
      return { o with state := ← stateOf env run.id }) (Outcome.Own b) := fun o ho =>
    .bind (same_stateOf suits known) fun _ _ => .pure ho
  unfold conclude
  dsimp only
  split
  · refine .bind (same_failRun suits known _ hp) fun o ho => ?_
    split
    · exact .pure ho
    · exact asked o ho
  · refine .bind (.pure hp) fun o ho => ?_
    split
    · exact .pure ho
    · exact asked o ho

theorem same_walkRun {run : Run} (known : K run.id) (own : run.Own b.others b.organization)
    (resuming : Bool) : Same b K (walkRun env resuming run) (Outcome.Own b) := by
  intro w v h
  obtain ⟨hresult, hprogress, -, hown, halike⟩ := same_walking suits known own
    ⟨run.node, resuming, { run := run.id }⟩ w v ⟨eventsOf_nil _, own.run⟩ h
  rw [run_walkRun, run_walkRun, ← hresult, ← hprogress]
  exact same_conclude suits known _ hown _ _ halike

/-- A run of the organization that is looked up is known from then on. -/
theorem Same.found {id : String} {f : Option Run → Engine σ β} {S : β → Prop}
    (lacks : b.others.LacksRun id) (gone : Same b K (f none) S)
    (there : ∀ run, run.Own b.others b.organization →
      Same b (fun i => K i ∨ i = run.id) (f (some run)) S) :
    Same b K (look env .getRun (fun db => db.run? id) >>= f) S := by
  have hlook : look env .getRun (fun db => db.run? id) >>= f =
      interrupt env .getRun >>= fun _ => MonadState.get >>= fun w : World σ => f (w.db.run? id) :=
    bind_assoc _ _ _
  rw [hlook]
  refine .bind (same_interrupt suits _) fun _ _ => .get fun w v h => ?_
  rw [← h.db.query (q := fun db => db.run? id) (h.db.left.run?_ownedBy lacks)
    (h.db.right.run?_ownedBy lacks)]
  cases hrun : w.db.run? id with
  | none => exact gone w v h
  | some run =>
    have hmem : run ∈ w.db.runs := List.mem_of_find?_eq_some hrun
    have howner := h.db.left.organization_eq_of_run lacks hmem
      (by simpa using List.find?_some hrun)
    refine (there run (h.db.left.runs run hmem howner)).forget
      { h with db := { h.db with known := ?_ } } fun _ => .inl
    rintro i (hi | rfl)
    · exact h.db.known i hi
    · exact Database.hasRun_of_mem hmem howner

theorem same_runFrom {route : List Event → Engine σ Unit}
    (hroute : ∀ K es, EventsOf b.organization es → Same b K (route es) fun _ => True)
    (resuming : Bool) {id : String} (lacks : b.others.LacksRun id) :
    Same b K (runFrom env route resuming id) fun o => b.others.LacksRun o.run := by
  refine .bind (same_interrupt suits _) fun _ _ =>
    .found suits lacks (.pure lacks) fun run own => ?_
  dsimp only
  split
  · exact .pure lacks
  · refine .bind (same_walkRun suits (.inr rfl) own resuming) fun o ho => ?_
    split
    · exact .bind (hroute _ _ ho.1).attempt fun _ _ => .pure ho.2
    · exact .pure ho.2

end Runs

/-! ## Events -/

section Events

include suits

theorem same_createRun {d : Definition} (own : d.Own b.others b.organization)
    (contact node : String) (event : Value) (chainDepth : Int) :
    Same b K (createRun env d contact node event chainDepth)
      fun r => ∀ run, r = some run → b.others.LacksRun run.id := by
  refine .bind (same_interrupt suits _) fun _ _ => ?_
  refine .bind (same_ofExcept _) fun depth _ => ?_
  refine .bind (same_freshId suits .run) fun id hid => ?_
  have hcommit : Same (σ := σ) b K
      (commit fun time db => .ok (db.createRun time id d contact node event depth))
      fun r => ∀ run, r = some run → b.others.LacksRun run.id := by
    refine same_commit fun time db db' h =>
      ⟨h.left.createRun own hid.1.1 hid.1.2 time contact node event depth,
        h.right.createRun own hid.1.1 hid.1.2 time contact node event depth, ?_⟩
    intro r after hr run hrun
    simp only [Except.ok.injEq, Database.createRun] at hr
    split at hr <;> cases hr <;> cases hrun
    exact hid.1.1
  exact hcommit

omit suits in
theorem same_withTriggers {l : List Definition}
    (own : ∀ d ∈ l, d.Own b.others b.organization) :
    Same (σ := σ) b K (withTriggers l)
      fun found => ∀ p ∈ found, p.1.Own b.others b.organization := by
  induction l with
  | nil => exact .pure (by simp)
  | cons d l ih =>
    have hd := own d List.mem_cons_self
    refine .bind (same_usableGraph? hd.definition) fun g _ =>
      .bind (ih fun a ha => own a (List.mem_cons_of_mem _ ha)) fun others hothers => ?_
    split
    · refine .pure fun p hp => ?_
      rcases List.mem_cons.1 hp with rfl | hp
      · exact hd
      · exact hothers p hp
    · exact .pure hothers

theorem same_candidates {e : Event} (own : e.organization = b.organization) :
    Same b K (candidates env e) fun found => ∀ p ∈ found, p.1.Own b.others b.organization := by
  refine .bind (same_look suits .publishedFor
    (Q := fun l => ∀ d ∈ l, d.Own b.others b.organization) fun db db' h => ⟨?_, ?_⟩)
    fun l hl => same_withTriggers hl
  · rw [own]
    exact h.query (q := fun db => db.publishedFor b.organization e.type.text)
      (Database.publishedFor_ownedBy ..) (Database.publishedFor_ownedBy ..)
  · intro d hd
    rw [Database.publishedFor, List.mem_mergeSort, List.mem_filter] at hd
    simp only [Bool.and_eq_true, beq_iff_eq] at hd
    exact h.left.definitions d hd.1 (hd.2.1.1.trans own)

theorem same_startRuns (e : Event) {found : List (Definition × Node)}
    (own : ∀ p ∈ found, p.1.Own b.others b.organization) {r : MatchResult}
    (hr : ∀ run ∈ r.runs, b.others.LacksRun run.id) :
    Same b K (startRuns env e found r) fun r => ∀ run ∈ r.runs, b.others.LacksRun run.id := by
  induction found generalizing r with
  | nil => exact .pure hr
  | cons p found ih =>
    have ih := fun r => @ih (fun p hp => own p (List.mem_cons_of_mem _ hp)) r
    unfold startRuns
    split
    · refine .bind (same_createRun suits (own p List.mem_cons_self) _ _ _ _) fun created hnew => ?_
      split
      · rename_i run
        refine ih _ fun a ha => ?_
        rcases List.mem_append.1 ha with ha | ha
        · exact hr a ha
        · exact List.mem_singleton.1 ha ▸ hnew run rfl
      · exact ih _ hr
    · exact ih _ hr

omit suits in
/-- Whose turn it is makes no difference to what is done in it. -/
theorem same_inTurn {x : Engine σ α} {Q : α → Prop} (organization contact : String)
    (hx : Same b K x Q) : Same b K (inTurn organization contact x) Q := by
  have hrun : ∀ w : World σ, ∃ came left,
      (inTurn organization contact x).run w = ((x.run { w with turns := came }).1,
        { (x.run { w with turns := came }).2 with turns := left }) := fun _ => ⟨_, _, rfl⟩
  intro w v h
  obtain ⟨came, left, hw⟩ := hrun w
  obtain ⟨came', left', hv⟩ := hrun v
  obtain ⟨hresult, hgood, halike⟩ :=
    hx { w with turns := came } { v with turns := came' } { h with }
  rw [hw, hv]
  exact ⟨hresult, hgood, { halike with }⟩

variable {route : List Event → Engine σ Unit}
  (hroute : ∀ K es, EventsOf b.organization es → Same b K (route es) fun _ => True)

include hroute

theorem same_advanceAll {runs : List Run} (lacks : ∀ run ∈ runs, b.others.LacksRun run.id) :
    Same b K (advanceAll env route runs) fun _ => True := by
  induction runs with
  | nil => exact .pure trivial
  | cons run runs ih =>
    exact .bind (same_runFrom suits hroute _ (lacks run List.mem_cons_self)) fun _ _ =>
      .bind (ih fun a ha => lacks a (List.mem_cons_of_mem _ ha)) fun _ _ => .pure trivial

theorem same_handleWith {e : Event} (own : e.organization = b.organization) :
    Same b K (handleWith env route e) fun _ => True := by
  refine .bind (same_interrupt suits _) fun _ _ => ?_
  split
  · exact .pure trivial
  · refine .bind (same_inTurn _ _ (.bind (same_candidates suits own) fun found hfound =>
      same_startRuns suits e hfound (by simp))) fun r hr => ?_
    exact .bind (same_advanceAll suits hroute hr) fun _ _ => .pure trivial

omit suits hroute in
theorem same_routeEach {handle : Event → Engine σ MatchResult}
    (hhandle : ∀ e, e.organization = b.organization → Same b K (handle e) fun _ => True)
    {es : List Event} (hes : EventsOf b.organization es) :
    Same b K (routeEach handle es) fun _ => True := by
  induction es with
  | nil => exact .pure trivial
  | cons e es ih =>
    exact .bind (hhandle e (hes e List.mem_cons_self)) fun _ _ =>
      ih fun a ha => hes a (List.mem_cons_of_mem _ ha)

omit hroute in
theorem same_handleWithin (levels : Nat) {e : Event} (own : e.organization = b.organization) :
    Same b K (handleWithin env levels e) fun _ => True := by
  induction levels generalizing e K with
  | zero => exact same_handleWith suits (fun _ _ _ => .pure trivial) own
  | succ levels ih =>
    exact same_handleWith suits (fun _ _ hes => same_routeEach (fun _ he => ih he) hes) own

omit hroute in
/-- An event of the organization, and all that follows from it. -/
theorem same_handleEvent {e : Event} (own : e.organization = b.organization) :
    Same b K (handleEvent env e) fun _ => True :=
  same_handleWithin suits _ own

omit hroute in
theorem same_routeFollowUps {es : List Event} (hes : EventsOf b.organization es) :
    Same b K (routeFollowUps env es) fun _ => True :=
  same_routeEach (fun _ he => same_handleEvent suits he) hes

omit hroute in
theorem same_advance {id : String} (lacks : b.others.LacksRun id) :
    Same b K (advance env id) fun o => b.others.LacksRun o.run :=
  same_runFrom suits (fun _ _ hes => same_routeFollowUps suits hes) false lacks

omit hroute in
theorem same_startManually {d : Definition} (own : d.Own b.others b.organization)
    (contact : String) (payload : Members) :
    Same b K (startManually env d contact payload)
      fun r => ∀ o, r = some o → b.others.LacksRun o.run := by
  refine .bind (same_usableGraph? own.definition) fun g _ => ?_
  split
  · exact .throw _
  · refine .bind (same_ofExcept _) fun type _ => ?_
    refine .bind (same_freshId suits .event) fun id _ => .bind same_now fun time _ => ?_
    refine .bind (same_inTurn _ _ (same_createRun suits own _ _ _ _)) fun created hnew => ?_
    split
    · exact .pure nofun
    · rename_i run
      refine .bind (same_advance suits (hnew run rfl)) fun o ho => .pure ?_
      rintro _ ⟨⟩
      exact ho

end Events

/-! ## Workflows -/

section Workflows

theorem same_latest (workflow : String) :
    Same (σ := σ) b K (latest workflow b.organization)
      fun d => d.Own b.others b.organization := by
  refine .get fun w v h => ?_
  rw [← h.db.query (q := fun db => db.latest workflow b.organization)
    (Database.latest_ownedBy ..) (Database.latest_ownedBy ..)]
  refine Same.ofExcept (fun d hd => ?_) w v h
  have hmem : d ∈ w.db.versions workflow b.organization := by
    simp only [Database.latest] at hd
    split at hd
    · rename_i hversions
      exact Except.ok.inj hd ▸ hversions ▸ List.mem_cons_self
    · cases hd
  obtain ⟨hstored, -, howner⟩ := Database.mem_versions.1 hmem
  exact h.db.left.definitions d hstored howner

theorem run_get_bind (f : World σ → Engine σ α) (w : World σ) :
    (MonadState.get >>= f).run w = (f w).run w :=
  rfl

theorem run_atomically_of_ok {x : Engine σ α} {w after : World σ} {a : α}
    (h : x.run w = (.ok a, after)) : (atomically x).run w = (.ok a, after) := by
  rw [atomically, run_get_bind]
  dsimp only
  rw [run_bind, run_attempt, h]
  rfl

/-- After a failure the definitions are what they were. -/
theorem run_atomically_of_error {x : Engine σ α} {w after : World σ} {f : Failure}
    (h : x.run w = (.error f, after)) : (atomically x).run w =
      (.error f, { after with db := { after.db with definitions := w.db.definitions } }) := by
  rw [atomically, run_get_bind]
  dsimp only
  rw [run_bind, run_attempt, h]
  rfl

theorem same_atomically {x : Engine σ α} {Q : α → Prop} (hx : Same b K x Q) :
    Same b K (atomically x) Q := by
  intro w v h
  obtain ⟨hresult, hgood, halike⟩ := hx w v h
  have hrestored := h.restored halike
  rcases hw : x.run w with ⟨f | a, w'⟩ <;> rcases hv : x.run v with ⟨f' | a', v'⟩ <;>
    rw [hw, hv] at hresult halike hrestored <;> rw [hw] at hgood <;> cases hresult
  · rw [run_atomically_of_error hw, run_atomically_of_error hv]
    exact ⟨rfl, by rintro _ ⟨⟩, hrestored⟩
  · rw [run_atomically_of_ok hw, run_atomically_of_ok hv]
    exact ⟨rfl, hgood, halike⟩

theorem same_archive (workflow : String) :
    Same (σ := σ) b K (archive workflow b.organization) fun _ => True :=
  same_commit fun time _ _ h =>
    ⟨h.left.archive time workflow, h.right.archive time workflow, fun _ _ _ => trivial⟩

include suits

theorem same_nameDefinition (workflow : String) (version : Int) :
    Same b K (freshId env (.definition workflow version)) fun id =>
      b.others.LacksDefinition id ∧ ':' ∉ id.toList :=
  (same_freshId suits (.definition workflow version)).mono fun id h =>
    ⟨h.1, suits.named id ⟨workflow, version, h.2⟩⟩

theorem same_createWorkflow (name description : String) (graph : Value)
    (createdBy : Option String) :
    Same b K (createWorkflow env b.organization name description graph createdBy)
      fun _ => True := by
  refine .bind (same_freshId suits .workflow) fun workflow fresh => ?_
  refine .bind (same_nameDefinition suits workflow 1) fun id hid => ?_
  exact same_commit fun time _ _ h =>
    ⟨h.left.createWorkflow hid.2 hid.1 fresh.1 time name description graph createdBy,
      h.right.createWorkflow hid.2 hid.1 fresh.1 time name description graph createdBy,
      fun _ _ _ => trivial⟩

theorem same_saveDraft (workflow : String) (edit : Database.Edit) :
    Same b K (saveDraft env workflow b.organization edit) fun _ => True := by
  refine .bind (same_latest workflow) fun read own => ?_
  refine .bind (same_nameDefinition suits workflow _) fun id hid => ?_
  exact same_commit fun time _ _ h =>
    ⟨h.left.writeDraft own hid.2 hid.1 time edit, h.right.writeDraft own hid.2 hid.1 time edit,
      fun _ _ _ => trivial⟩

theorem same_referenceExists (r : Graph.Reference) :
    Same b K (referenceExists env b.organization r) fun _ => True := by
  unfold referenceExists
  split
  · exact same_demand suits rfl
  · exact same_demand suits rfl
  · exact same_demand suits rfl
  · exact same_demand suits rfl

theorem same_referenceDefects (l : List Graph.Reference) :
    Same b K (referenceDefects env b.organization l) fun _ => True := by
  induction l with
  | nil => exact .pure trivial
  | cons r l ih =>
    refine .bind (same_referenceExists suits r).attempt fun found _ => .bind ih fun others _ => ?_
    split
    · exact .pure trivial
    · exact .pure trivial
    · exact .pure trivial

theorem same_validate (raw : Value) :
    Same b K (validate env raw b.organization) fun _ => True := by
  unfold validate
  split
  · exact .bind (same_referenceDefects suits _) fun _ _ => .pure trivial
  · exact .pure trivial

theorem same_publish (workflow : String) :
    Same b K (publish env workflow b.organization) fun _ => True := by
  refine .bind (same_latest workflow) fun draft own => ?_
  have accepted : Same b K (do
      let v ← validate env draft.graph b.organization
      if v.isOk then
        commit fun time => Database.markPublished time draft (v.graph?.bind triggerName)
      else
        throw (.validation
          ("Workflow " ++ workflow ++ " v" ++ toString draft.version ++ " is not valid")
          (v.defects.map Defect.toValue)) : Engine σ Definition) fun _ => True := by
    refine .bind (same_validate suits draft.graph) fun v _ => ?_
    split
    · exact same_commit fun time _ _ h =>
        ⟨h.left.markPublished own time _, h.right.markPublished own time _, fun _ _ _ => trivial⟩
    · exact .throw _
  dsimp only
  split
  · exact .bind (.throw (Q := fun _ => True) _) fun _ _ => accepted
  · exact accepted

theorem same_cancel {id : String} (lacks : b.others.LacksRun id) :
    Same b K (cancel env id) fun _ => True :=
  same_stored suits .cancel (fun _ _ _ => lacks) (fun _ => rfl) fun _ _ => ⟨rfl, rfl, rfl⟩

end Workflows

end Engine

end CrmAutomation
