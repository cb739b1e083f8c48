import CrmAutomation.Proofs.Engine.Asking
import CrmAutomation.Proofs.Engine.Routing

/-!
# What computations do, whatever they find

A `Step` carries the condition under which it is made, so that a computation goes by steps only
from worlds that are in order. A `Deed` is a step without conditions. What is said of it is which
calls to the database and which commands a computation is there to make (`Remit`), and that it makes
no others holds from every world (`Engine.Does`): an attempt at an action looks for a success and
writes nothing (`Engine.doesUnless_attemptAction`), an advance writes to its own run
(`Engine.does_walkRun`), and runs are begun where an event is handled (`Engine.does_matching`).
-/

namespace CrmAutomation

variable {σ α β : Type}

/-- The calls to the database that a computation may make, the commands that it may give, and the
definitions of which it may keep the graphs. -/
structure Remit where
  calls : StorageCall → Prop
  orders : RunCommand → Prop
  graphs : String → Prop

namespace Remit

/-- All that one remit allows another one allows. -/
structure Within (a b : Remit) : Prop where
  calls : ∀ call, a.calls call → b.calls call
  orders : ∀ c, a.orders c → b.orders c
  graphs : ∀ id, a.graphs id → b.graphs id

/-- Anything may be done. -/
def anything : Remit := ⟨fun _ => True, fun _ => True, fun _ => True⟩

/-- Calls that read, and no commands. -/
def reading (calls : StorageCall → Prop) : Remit := ⟨calls, fun _ => False, fun _ => True⟩

/-- The commands by which an advance writes to its run. -/
def Progresses (id : String) : RunCommand → Prop
  | .moveTo run _ | .suspend run _ _ | .complete run | .fail run _ => run = id
  | _ => False

/-- An advance writes to its own run, and may keep the graph of its definition. -/
def advancing (run : Run) : Remit := ⟨fun _ => True, Progresses run.id, (· = run.definition)⟩

/-- Anything may be done, but runs are begun only at some depths. -/
def handling (depths : Int → Prop) : Remit where
  calls _ := True
  orders
    | .create _ _ _ _ _ depth => depths depth
    | _ => True
  graphs _ := True

/-- Nothing is done with runs but that they are begun, at some depths. -/
def beginning (depths : Int → Prop) : Remit where
  calls _ := True
  orders
    | .create _ _ _ _ _ depth => depths depth
    | _ => False
  graphs _ := True

theorem beginning_within_handling (depths : Int → Prop) :
    (beginning depths).Within (handling depths) := by
  refine ⟨fun _ _ => trivial, fun c hc => ?_, fun _ _ => trivial⟩
  cases c with
  | create => exact hc
  | moveTo | suspend | complete | fail | cancel | claimSuspended | release | claimStale => trivial

theorem advancing_within_handling (run : Run) (depths : Int → Prop) :
    (advancing run).Within (handling depths) := by
  refine ⟨fun _ _ => trivial, fun c hc => ?_, fun _ _ => trivial⟩
  cases c with
  | create => exact hc.elim
  | moveTo | suspend | complete | fail | cancel | claimSuspended | release | claimStale => trivial

/-- The commands that take runs, give them back and cancel them. -/
def Claims : RunCommand → Prop
  | .claimSuspended _ | .release _ _ | .claimStale _ | .cancel _ => True
  | _ => False

/-- Runs are claimed and cancelled, but neither begun nor executed. -/
def claiming : Remit := ⟨(· ≠ .record), Claims, fun _ => False⟩

theorem claiming_within_handling (depths : Int → Prop) : claiming.Within (handling depths) := by
  refine ⟨fun _ _ => trivial, fun c hc => ?_, fun _ _ => trivial⟩
  cases c with
  | create => exact hc.elim
  | moveTo | suspend | complete | fail | cancel | claimSuspended | release | claimStale => trivial

end Remit

/-- One step of a computation with some remit. -/
inductive Deed (env : Environment σ) (remit : Remit) (w : World σ) : World σ → Prop where
  | tick : Deed env remit w { w with clock := w.clock.later 1 }
  | name (kind : IdKind) : Deed env remit w (w.named env kind)
  | draw : Deed env remit w { w with host := (env.host.draw w.host).2 }
  | wait (delay : Double) : Deed env remit w (w.waited env delay)
  | interrupt (call : StorageCall) (permitted : remit.calls call) :
    Deed env remit w (w.interrupted env call)
  | serve (call : ServiceCall) : Deed env remit w (w.served env call)
  | remember (id : String) (g : Graph) (permitted : remit.graphs id) :
    Deed env remit w { w with graphs := w.graphs ++ [(id, g)] }
  | turn (turns : Turns (String × String)) : Deed env remit w { w with turns := turns }
  | command (call : StorageCall) (c : RunCommand) (old : c.isCreate = false)
      (permitted : remit.calls call) (ordered : remit.orders c) :
    Deed env remit w ((w.interrupted env call).commanded c)
  | create (d : Definition) (contact node : String) (event : Value) (chainDepth : Int)
      (ordered : remit.orders (.create (env.host.freshId .run w.db w.host).1 d contact node event
        chainDepth)) :
    Deed env remit w ((w.named env .run).commanded
      (.create (env.host.freshId .run w.db w.host).1 d contact node event chainDepth))
  | record (r : NodeRecord) (permitted : remit.calls .record) :
    Deed env remit w ((w.interrupted env .record).recorded r)

theorem Deed.mono {env : Environment σ} {a b : Remit} {w w' : World σ} (hab : a.Within b)
    (h : Deed env a w w') : Deed env b w w' := by
  cases h with
  | tick => exact .tick
  | name kind => exact .name kind
  | draw => exact .draw
  | wait delay => exact .wait delay
  | interrupt call permitted => exact .interrupt call (hab.calls _ permitted)
  | serve call => exact .serve call
  | remember id g permitted => exact .remember id g (hab.graphs _ permitted)
  | turn turns => exact .turn turns
  | command call c old permitted ordered =>
    exact .command call c old (hab.calls _ permitted) (hab.orders _ ordered)
  | create d contact node event chainDepth ordered =>
    exact .create d contact node event chainDepth (hab.orders _ ordered)
  | record r permitted => exact .record r (hab.calls _ permitted)

/-! ## Computations over a world -/

namespace Engine

/-- From every world, `x` goes by deeds of the remit, and it fails only if `F` is true. -/
abbrev DoesUnless (env : Environment σ) (remit : Remit) (F : Prop) (x : Engine σ α) : Prop :=
  Leads (Deed env remit) (fun _ => True) x (fun _ _ => True) fun _ => F

/-- From every world, `x` goes by deeds of the remit. -/
abbrev Does (env : Environment σ) (remit : Remit) (x : Engine σ α) : Prop :=
  DoesUnless env remit True x

variable {env : Environment σ} {remit : Remit} {F : Prop} {x : Engine σ α} {f : α → Engine σ β}

namespace DoesUnless

theorem pure (a : α) : DoesUnless env remit F (Pure.pure a : Engine σ α) :=
  Leads.pure a fun _ _ => trivial

theorem bind (hx : DoesUnless env remit F x) (hf : ∀ a, DoesUnless env remit F (f a)) :
    DoesUnless env remit F (x >>= f) :=
  Leads.bind hx hf

theorem attempt (hx : Does env remit x) : DoesUnless env remit F (Engine.attempt x) :=
  Leads.attempt hx (fun _ _ _ => trivial) fun _ _ _ => trivial

theorem throw (e : Failure) : Does env remit (throw e : Engine σ α) :=
  Leads.throw e fun _ _ => trivial

theorem ofExcept (r : Except Failure α) : Does env remit (Engine.ofExcept r : Engine σ α) :=
  Leads.ofExcept r (fun _ _ _ _ => trivial) fun _ _ => trivial

theorem does (hx : DoesUnless env remit F x) : Does env remit x :=
  Leads.fails hx fun _ _ => trivial

end DoesUnless

namespace Does

theorem path (h : Does env remit x) (w : World σ) : Path (Deed env remit) w (x.run w).2 :=
  (h w trivial).1

theorem of_path (h : ∀ w, Path (Deed env remit) w (x.run w).2) : Does env remit x :=
  stays_iff.2 fun w _ => ⟨h w, trivial⟩

/-- A computation of one deed. -/
theorem of_deed (h : ∀ w, Deed env remit w (x.run w).2) : Does env remit x :=
  of_path fun w => .single (h w)

theorem mono {a b : Remit} (hab : a.Within b) (h : Does env a x) : Does env b x :=
  Leads.steps h fun _ _ hdeed => hdeed.mono hab

/-- What every deed of the remit keeps is kept by what goes by them. -/
theorem stays {I : World σ → Prop} (hI : ∀ w w', Deed env remit w w' → I w → I w')
    (h : Does env remit x) : Stays (Deed env remit) I x :=
  (Leads.keep h hI).conseq (fun _ hw => ⟨hw, trivial⟩) (fun _ _ hw => hw.1) fun _ hw => hw.1

end Does

/-- A computation of one deed that never fails. -/
theorem doesUnless_of_deed {after : World σ → World σ} (hrun : ∀ w, ∃ a, x.run w = (.ok a, after w))
    (h : ∀ w, Deed env remit w (after w)) : DoesUnless env remit F x := by
  intro w _
  obtain ⟨a, ha⟩ := hrun w
  rw [ha]
  exact ⟨.single (h w), trivial⟩

theorem does_now : DoesUnless env remit F now :=
  doesUnless_of_deed (fun _ => ⟨_, rfl⟩) fun _ => .tick

theorem does_freshId (kind : IdKind) : DoesUnless env remit F (freshId env kind) :=
  doesUnless_of_deed (fun _ => ⟨_, rfl⟩) fun _ => .name kind

theorem does_draw : Does env remit (monadLift (draw env) : Engine σ Double) :=
  .of_deed fun _ => .draw

theorem does_wait (delay : Double) : Does env remit (wait env delay) :=
  .of_deed fun _ => .wait delay

theorem does_ask (call : ServiceCall) : DoesUnless env remit F (ask env call) :=
  doesUnless_of_deed (fun _ => ⟨_, rfl⟩) fun _ => .serve call

theorem does_get : Does env remit (get : Engine σ (World σ)) :=
  .of_path fun _ => .refl

theorem does_turns (f : World σ → Turns (String × String)) :
    Does env remit (modify fun w => { w with turns := f w } : Engine σ Unit) :=
  .of_deed fun w => .turn (f w)

theorem doesUnless_remember (id : String) (g : Graph) (permitted : remit.graphs id) :
    DoesUnless env remit F (remember (σ := σ) id g) := by
  intro w _
  have hrun : (remember id g).run w = (.ok (), if (cached? id w.graphs).isSome then w
      else { w with graphs := w.graphs ++ [(id, g)] }) := rfl
  rw [hrun]
  split
  · exact ⟨.refl, trivial⟩
  · exact ⟨.single (.remember id g permitted), trivial⟩

theorem doesUnless_interrupt (call : StorageCall) (permitted : remit.calls call) :
    DoesUnless env remit (¬env.host.Sure call) (interrupt env call) := by
  intro w _
  rw [run_interrupt]
  split
  · rename_i f hf
    exact ⟨.single (.interrupt call permitted), fun sure => by simp [sure w.db w.host] at hf⟩
  · exact ⟨.single (.interrupt call permitted), trivial⟩

theorem doesUnless_look (call : StorageCall) (query : Database → α)
    (permitted : remit.calls call) :
    DoesUnless env remit (¬env.host.Sure call) (look env call query) :=
  .bind (doesUnless_interrupt call permitted) fun _ _ _ => ⟨.refl, trivial⟩

theorem does_interrupt (call : StorageCall) (permitted : remit.calls call) :
    Does env remit (interrupt env call) :=
  (doesUnless_interrupt call permitted).does

theorem does_look (call : StorageCall) (query : Database → α) (permitted : remit.calls call) :
    Does env remit (look env call query) :=
  (doesUnless_look call query permitted).does

theorem does_demand (call : ServiceCall) : Does env remit (demand env call) := by
  refine .bind (does_ask call) fun answer => ?_
  cases answer with
  | value a => exact .pure a
  | failure f => exact .throw f
  | silence => exact .throw _

/-- A command to the table of runs. -/
theorem does_stored {change : Instant → Database → α × Database} (call : StorageCall)
    (c : RunCommand) (old : c.isCreate = false) (permitted : remit.calls call)
    (ordered : remit.orders c) (hc : ∀ time db, (change time db).2 = c.perform time db) :
    Does env remit (stored env call change) := by
  refine .of_deed fun w => ?_
  rw [run_stored]
  split
  · exact .interrupt call permitted
  · rw [hc]
    exact .command call c old permitted ordered

theorem does_record (run node nodeType : String) (attempt : Int) (outcome : NodeOutcome)
    (error : Option String) (output : Option Value) (permitted : remit.calls .record) :
    Does env remit (record env run node nodeType attempt outcome error output) := by
  refine .of_path fun w => ?_
  rw [record, run_interrupt_bind]
  split
  · exact .single (.interrupt .record permitted)
  · rw [run_commit]
    split
    · rename_i hrecord
      obtain ⟨rfl, rfl⟩ := eq_of_record_eq_ok hrecord
      exact .single (.record _ permitted)
    · exact .tail (.single (.interrupt .record permitted)) .tick

/-! ## Attempts at actions -/

theorem does_followUp (c : ActionContext) (type : EventType) (payload : Members) :
    DoesUnless env remit F (followUp env c type payload) := by
  unfold followUp
  split
  · exact .bind (does_freshId _) fun _ => .bind does_now fun _ => .pure _
  · exact .pure _

theorem does_onValue {answer : Answer α} {f : α → Engine σ ActionResult}
    (hf : ∀ a, DoesUnless env remit F (f a)) : DoesUnless env remit F (onValue answer f) := by
  cases answer with
  | value a => exact .bind (hf a) fun _ => .pure _
  | failure e => exact .pure _
  | silence => exact .pure _

/-- An action that changes the contact and tells what it has changed. -/
theorem does_change (call : ServiceCall) (c : ActionContext) (type : EventType) (payload : Members)
    (result : List Event → ActionResult) :
    DoesUnless env remit F (do
      onValue (← ask env call) fun _ => do return result (← followUp env c type payload)) :=
  .bind (does_ask call) fun _ => does_onValue fun _ =>
    .bind (does_followUp c type payload) fun _ => .pure _

theorem does_executeInTime (c : ActionContext) (timeout : Double) :
    DoesUnless env remit F (executeInTime env c timeout) := by
  unfold executeInTime
  split
  · exact .pure _
  · unfold execute
    split
    · unfold moveStage
      split
      · exact .pure _
      · exact does_change _ c _ _ _
    · unfold addTag
      split
      · exact .pure _
      · exact does_change _ c _ _ _
    · unfold removeTag
      split
      · exact .pure _
      · exact does_change _ c _ _ _
    · unfold sendEmail
      split
      · exact .pure _
      · exact .bind (does_ask _) fun answer => by cases answer <;> exact .pure _
    · exact .bind (does_ask _) fun answer => by cases answer <;> exact .pure _
    · exact .pure _

theorem doesUnless_dispatch (c : ActionContext) (permitted : remit.calls .hasSuccess) :
    DoesUnless env remit (¬env.host.Sure .hasSuccess) (dispatch env c) := by
  have rest : ∀ (timeout : Double) (f : Answer ActionResult → Engine σ ActionResult),
      (∀ answer, ∃ r, f answer = Pure.pure r) →
      DoesUnless env remit (¬env.host.Sure .hasSuccess) (executeInTime env c timeout >>= f) := by
    refine fun timeout f hf => .bind (does_executeInTime c timeout) fun answer => ?_
    obtain ⟨r, hr⟩ := hf answer
    exact hr ▸ .pure r
  unfold dispatch
  split
  · exact .pure _
  · dsimp only
    split
    · refine .bind (doesUnless_look _ _ permitted) fun found => ?_
      split
      · exact .pure _
      · exact rest _ _ fun answer => by cases answer <;> exact ⟨_, rfl⟩
    · exact rest _ _ fun answer => by cases answer <;> exact ⟨_, rfl⟩

/-- An attempt at an action looks for a success of its node and writes nothing. It fails as a whole
only where that look does. -/
theorem doesUnless_attemptAction (run : Run) (node : Node) (number : Int)
    (permitted : remit.calls .hasSuccess) :
    DoesUnless env remit (¬env.host.Sure .hasSuccess) (attemptAction env run node number) := by
  unfold attemptAction
  refine .bind (.attempt (does_demand _)) fun answer => ?_
  split
  · exact .pure _
  · exact .pure _
  · exact doesUnless_dispatch _ permitted

theorem does_attemptAction (run : Run) (node : Node) (number : Int)
    (permitted : remit.calls .hasSuccess) :
    Does env remit (attemptAction env run node number) :=
  (doesUnless_attemptAction run node number permitted).does

/-! ## Conditions -/

theorem does_executeFrom {x : Engine σ α} (s : RetryStrategy) (hx : Does env remit x) (left : Nat)
    (number : Int) :
    Does env remit
      (ExceptT.mk (s.executeFrom (draw env) (fun _ _ _ => pure ()) x.run left number)) := by
  induction left generalizing number with
  | zero => exact hx
  | succ left ih =>
    refine Does.of_path fun w => ?_
    have hpath := hx.path w
    change Path _ w (s.executeFrom _ _ x.run (left + 1) number w).2
    rw [run_executeFrom_succ]
    rcases hrun : x.run w with ⟨f | a, w'⟩ <;> rw [hrun] at hpath
    · dsimp only
      split
      · split
        · exact .tail hpath .draw
        · exact (Relation.ReflTransGen.tail hpath .draw).trans ((ih (number + 1)).path _)
      · exact hpath
    · exact hpath

/-- A condition is decided by reads from the services. -/
theorem does_decideCondition (run : Run) (c : Comparison) :
    Does env remit (decideCondition env run c) := by
  refine .bind (does_executeFrom _ (does_demand _) _ _) fun contact => ?_
  split
  · exact .throw _
  · split
    · exact .pure _
    · exact .throw _

end Engine

/-! ## Computations on one run -/

namespace Walk

/-- From every world and progress, `x` goes by deeds of the remit. -/
abbrev Does (env : Environment σ) (remit : Remit) (x : Walk σ α) : Prop :=
  Leads (Deed env remit) (fun _ _ => True) x (fun _ _ _ => True) (fun _ _ _ => True)

variable {env : Environment σ} {remit : Remit}

namespace Does

variable {x : Walk σ α} {f : α → Walk σ β}

theorem bind (hx : Does env remit x) (hf : ∀ a, Does env remit (f a)) :
    Does env remit (x >>= f) :=
  Leads.bind hx hf

theorem engine {x : Engine σ α} (hx : Engine.Does env remit x) :
    Does env remit (Walk.engine x) :=
  Leads.engine (fun _ => hx) fun _ _ _ _ => trivial

/-- A part of a walk that leaves the world alone. -/
theorem of_world_eq (h : ∀ p w, (x.run (p, w)).2.2 = w) : Does env remit x := by
  intro p w _
  rw [h p w]
  refine ⟨.refl, ?_⟩
  split <;> trivial

theorem path (h : Does env remit x) (p : Progress) (w : World σ) :
    Path (Deed env remit) w (x.run (p, w)).2.2 :=
  (h p w trivial).1

end Does

end Walk

namespace Engine

variable {env : Environment σ} {remit : Remit} {run : Run}

theorem does_stateOf (id : String) (permitted : remit.calls .getState) :
    Does env remit (stateOf env id) :=
  does_look _ _ permitted

theorem does_failRun_of (error : String) (o : Outcome) (failed : remit.calls .fail)
    (read : remit.calls .getState) (ordered : remit.orders (.fail run.id error)) :
    Does env remit (failRun env run.id error o) := by
  refine .bind (does_stored .fail (.fail run.id error) rfl failed ordered fun _ _ => rfl)
    fun done => ?_
  split
  · exact .pure _
  · exact .bind (does_stateOf run.id read) fun _ => .pure _

theorem does_failRun (error : String) (o : Outcome) :
    Does env (.advancing run) (failRun env run.id error o) :=
  does_failRun_of error o trivial trivial rfl

theorem does_failWalk_of (error : String) (failed : remit.calls .fail)
    (read : remit.calls .getState) (ordered : remit.orders (.fail run.id error)) :
    Walk.Does env remit (failWalk env run.id error) :=
  .bind (.of_world_eq fun _ _ => rfl) fun p =>
    .bind (.engine (does_failRun_of error p.outcome failed read ordered))
      fun _ => .of_world_eq fun _ _ => rfl

theorem does_failWalk (error : String) :
    Walk.Does env (.advancing run) (failWalk env run.id error) :=
  does_failWalk_of error trivial trivial rfl

theorem does_goOn_of (next : Option String) (completed : remit.calls .complete)
    (moved : remit.calls .moveTo) (ordered : ∀ c, Remit.Progresses run.id c → remit.orders c) :
    Walk.Does env remit (goOn env run.id next) := by
  unfold goOn
  cases next with
  | none =>
    refine .bind (.engine (does_stored .complete (.complete run.id) rfl completed (ordered _ rfl)
      fun _ _ => rfl)) fun done => ?_
    cases done <;> exact .of_world_eq fun _ _ => rfl
  | some node =>
    refine .bind (.engine (does_stored .moveTo (.moveTo run.id node) rfl moved (ordered _ rfl)
      fun _ _ => rfl)) fun done => ?_
    cases done <;> exact .of_world_eq fun _ _ => rfl

theorem does_goOn (next : Option String) :
    Walk.Does env (.advancing run) (goOn env run.id next) :=
  does_goOn_of next trivial trivial fun _ h => h

theorem does_executeCondition (g : Graph) (node : Node) (c : Comparison) :
    Walk.Does env (.advancing run) (executeCondition env g run node c) := by
  refine .bind (.engine (does_look _ _ trivial)) fun number => ?_
  refine .bind (.engine (does_decideCondition run c).attempt) fun decided => ?_
  split
  · exact .bind (.engine (does_record _ _ _ _ _ _ _ trivial)) fun _ => does_failWalk _
  · exact .bind (.engine (does_record _ _ _ _ _ _ _ trivial)) fun _ => does_goOn _

theorem does_executeDelay (node : Node) (minutes : Int) :
    Walk.Does env (.advancing run) (executeDelay env run node minutes) := by
  refine .bind (.engine does_now) fun time => ?_
  refine .bind (.engine (.ofExcept _)) fun resumeAt => ?_
  refine .bind (.engine (does_stored .suspend (.suspend run.id node.id resumeAt) rfl trivial rfl
    fun _ _ => rfl)) fun done => ?_
  split
  · refine .bind (.engine (does_look _ _ trivial)) fun number => ?_
    exact .bind (.engine (does_record _ _ _ _ _ _ _ trivial)) fun _ =>
      .of_world_eq fun _ _ => rfl
  · exact .of_world_eq fun _ _ => rfl

theorem does_tryOnce {again : Walk σ Unit} (g : Graph) (node : Node) (number : Int)
    (hagain : Walk.Does env (.advancing run) again) :
    Walk.Does env (.advancing run) (tryOnce env g run node number again) := by
  refine .bind (.engine (does_attemptAction run node number trivial)) fun r => ?_
  refine .bind (.engine (does_record _ _ _ _ _ _ _ trivial)) fun _ => ?_
  split
  · exact .bind (.of_world_eq fun _ _ => rfl) fun _ => does_goOn _
  · split
    · exact does_failWalk _
    · refine .bind (.engine does_draw) fun u => .bind (.engine (.ofExcept _)) fun delay => ?_
      refine .bind (.engine (does_wait delay)) fun _ => ?_
      refine .bind (.engine (does_stateOf _ trivial)) fun state => ?_
      split
      · exact hagain
      · exact .bind (.of_world_eq fun _ _ => rfl) fun _ => .of_world_eq fun _ _ => rfl

theorem does_tryAction (g : Graph) (node : Node) (left : Nat) (number : Int) :
    Walk.Does env (.advancing run) (tryAction env g run node left number) := by
  induction left generalizing number with
  | zero => exact does_tryOnce g node number (.of_world_eq fun _ _ => rfl)
  | succ left ih => exact does_tryOnce g node number (ih (number + 1))

theorem does_executeAction (g : Graph) (node : Node) :
    Walk.Does env (.advancing run) (executeAction env g run node) := by
  have used : ∀ (isUsedUp : Bool) (number : Int) (error : String),
      Walk.Does env (.advancing run) (if isUsedUp then failWalk env run.id error
        else
          tryAction env g run node (env.rules.strategy.maxAttempts - number).toNat number) := by
    intro isUsedUp number error
    split
    · exact does_failWalk _
    · exact does_tryAction g node _ number
  refine .bind (.engine (does_look _ _ trivial)) fun number => ?_
  dsimp only
  split
  · exact .bind (.engine (does_look _ _ trivial)) fun _ =>
      .bind (.of_world_eq fun _ _ => rfl) fun _ => used _ number _
  · exact .bind (.of_world_eq fun _ _ => rfl) fun _ => used _ number _

theorem does_executeNode (g : Graph) (node : Node) (resuming : Bool) :
    Walk.Does env (.advancing run) (executeNode env g run node resuming) := by
  have delayed : ∀ (isOver : Bool) (minutes : Int), Walk.Does env (.advancing run)
      (if isOver then goOn env run.id (g.nextNodeId? node.id .default)
        else executeDelay env run node minutes) := by
    intro isOver minutes
    split
    · exact does_goOn _
    · exact does_executeDelay node minutes
  unfold executeNode
  split
  · exact does_goOn _
  · exact does_executeCondition g node _
  · dsimp only
    split
    · exact .bind (.of_world_eq fun _ _ => rfl) fun _ => delayed _ _
    · exact .bind (.engine (does_look _ _ trivial)) fun _ => delayed _ _
  · exact does_executeAction g node

theorem does_whileRunning {x : Walk σ Unit} (hx : Walk.Does env (.advancing run) x) :
    Walk.Does env (.advancing run) (whileRunning env run.id x) := by
  refine .bind (.engine (does_stateOf _ trivial)) fun state => ?_
  split
  · exact hx
  · exact .of_world_eq fun _ _ => rfl

theorem does_takeStep {further : Walk σ Unit} (g : Graph)
    (hfurther : Walk.Does env (.advancing run) further) :
    Walk.Does env (.advancing run) (takeStep env g run further) := by
  refine .bind (.of_world_eq fun _ _ => rfl) fun _ =>
    .bind (.of_world_eq fun _ _ => rfl) fun p => ?_
  split
  · exact does_failWalk _
  · refine .bind (does_executeNode g _ _) fun _ => .bind (.of_world_eq fun _ _ => rfl) fun _ => ?_
    refine .bind (.of_world_eq fun _ _ => rfl) fun q => ?_
    split
    · exact hfurther
    · exact .of_world_eq fun _ _ => rfl

theorem does_walk (g : Graph) (n : Nat) :
    Walk.Does env (.advancing run) (walk env g run n) := by
  induction n with
  | zero => exact does_whileRunning (does_failWalk _)
  | succ n ih => exact does_whileRunning (does_takeStep g ih)

/-! ## Advances -/

theorem does_graphOf (id : String) (permitted : remit.calls .getDefinition)
    (kept : remit.graphs id) :
    Does env remit (graphOf env id) := by
  refine .bind does_get fun w => ?_
  split
  · exact .pure _
  · refine .bind (does_look _ _ permitted) fun found => ?_
    split
    · exact .throw _
    · exact .bind (.ofExcept _) fun g => .bind (doesUnless_remember _ g kept) fun _ => .pure _

theorem does_walking (run : Run) : Walk.Does env (.advancing run) (walking env run) :=
  .bind (.engine (does_graphOf _ trivial rfl)) fun g => does_walk g _

theorem does_conclude (run : Run) (result : Except Halt Unit) (p : Progress) :
    Does env (.advancing run) (conclude env run result p) :=
  leads_conclude_of result p (fun _ => does_failRun _ _) (fun _ _ => trivial)
    fun _ => does_stateOf _ trivial

/-- An advance writes to its own run. -/
theorem does_walkRun (run : Run) (resuming : Bool) :
    Does env (.advancing run) (walkRun env resuming run) := by
  refine Does.of_path fun w => ?_
  rw [run_walkRun]
  exact ((does_walking run).path _ w).trans ((does_conclude run _ _).path _)

/-! ## Events -/

theorem does_createRun (d : Definition) (contact node : String) (event : Value) (chainDepth : Int)
    (permitted : remit.calls .create)
    (ordered : ∀ id, remit.orders (.create id d contact node event chainDepth)) :
    Does env remit (createRun env d contact node event chainDepth) := by
  refine Leads.bind (does_interrupt _ permitted) fun _ => ?_
  refine .bind (leads_bound fun _ _ _ => trivial) fun depth => .assume (fun _ hw => hw.1) ?_
  rintro rfl
  exact fun w _ => ⟨.single (.create d contact node event depth (ordered _)), trivial⟩

theorem does_startRuns (e : Event) (permitted : remit.calls .create) :
    ∀ (l : List (Definition × Node)) (r : MatchResult),
      (∀ p ∈ l, ∀ id, remit.orders (.create id p.1 e.contact p.2.id e.toValue e.chainDepth)) →
      Does env remit (startRuns env e l r)
  | [], r, _ => .pure r
  | (d, trigger) :: l, r, ordered => by
    have hrest : ∀ r, Does env remit (startRuns env e l r) := fun r =>
      does_startRuns e permitted l r fun p hp => ordered p (List.mem_cons_of_mem _ hp)
    unfold startRuns
    split
    · refine .bind (does_createRun d _ _ _ _ permitted (ordered _ List.mem_cons_self))
        fun created => ?_
      split <;> exact hrest _
    · exact hrest _

theorem doesUnless_usableGraph (d : Definition) (kept : remit.graphs d.id) :
    DoesUnless env remit F (usableGraph? (σ := σ) d) := by
  refine .bind (fun w _ => ⟨.refl, trivial⟩) fun w => ?_
  split
  · exact .pure _
  · split
    · exact .pure _
    · exact .bind (doesUnless_remember _ _ kept) fun _ => .pure _

theorem doesUnless_withTriggers (l : List Definition) (kept : ∀ d ∈ l, remit.graphs d.id) :
    DoesUnless env remit F (withTriggers (σ := σ) l) := by
  induction l with
  | nil => exact .pure _
  | cons d l ih =>
    refine .bind (doesUnless_usableGraph d (kept d List.mem_cons_self)) fun g =>
      .bind (ih fun d hd => kept d (List.mem_cons_of_mem _ hd)) fun others => ?_
    split <;> exact .pure _

theorem does_usableGraph (d : Definition) (kept : remit.graphs d.id) :
    Does env remit (usableGraph? (σ := σ) d) :=
  doesUnless_usableGraph d kept

theorem does_candidates (e : Event) (permitted : remit.calls .publishedFor)
    (kept : ∀ id, remit.graphs id) : Does env remit (candidates env e) :=
  .bind (does_look _ _ permitted) fun found => doesUnless_withTriggers found fun _ _ => kept _

/-- What is done where an event begins runs. -/
theorem does_matching_of (e : Event) (published : remit.calls .publishedFor)
    (create : remit.calls .create) (kept : ∀ id, remit.graphs id)
    (ordered : ∀ id d node, remit.orders (.create id d e.contact node e.toValue e.chainDepth)) :
    Does env remit (matching env e) :=
  stays_inTurn _ _ does_turns (.bind (does_candidates e published kept) fun found =>
    does_startRuns e create found _ fun p _ id => ordered id p.1 p.2.id)

/-- Events begin runs that are as deep as they are. -/
theorem does_matching {depths : Int → Prop} (e : Event) (h : depths e.chainDepth) :
    Does env (.beginning depths) (matching env e) :=
  does_matching_of e trivial trivial (fun _ => trivial) fun _ _ _ => h

/-- A write that compares a lock. -/
theorem does_raiseLock (call : StorageCall) (lock : Int) (c : RunCommand)
    (old : c.isCreate = false) (permitted : remit.calls call) (ordered : remit.orders c)
    {change : Instant → Database → Bool × Database}
    (hc : ∀ time db, (change time db).2 = c.perform time db) :
    Does env remit (raiseLock env call lock change) := by
  refine .of_deed fun w => ?_
  rw [raiseLock, run_interrupt_bind]
  split
  · exact .interrupt call permitted
  · split
    · have hdeed : Deed env remit w ((w.interrupted env call).commanded c) :=
        .command call c old permitted ordered
      rw [World.commanded, ← hc] at hdeed
      rw [run_commit]
      exact hdeed
    · exact .interrupt call permitted

/-! ## Operations -/

/-- `I` is kept by calls to the database and claims, where a stored run is walked, and where an
event begins runs. -/
structure Serves (env : Environment σ) (S : World σ → World σ → Prop) (I : World σ → Prop) :
    Prop where
  claiming : ∀ {α : Type} {x : Engine σ α}, Does env .claiming x → Silent x → Stays S I x
  walking : ∀ resuming run,
    Leads S (fun w => I w ∧ run ∈ w.db.runs) (walkRun env resuming run) (fun _ => I) I
  matching : ∀ e, e.chainDepth ≤ env.rules.maxChainDepth → Stays S I (matching env e)

namespace Serves

variable {S : World σ → World σ → Prop} {I : World σ → Prop} (h : Serves env S I)

include h

theorem runFrom {route : List Event → Engine σ Unit} (hroute : ∀ es, Stays S I (route es))
    (resuming : Bool) (id : String) : Stays S I (runFrom env route resuming id) :=
  stays_runFrom (fun call hcall => h.claiming (does_interrupt call hcall) (silent_interrupt call))
    (h.walking resuming) hroute id

theorem upholds : Upholds env S I where
  call := h.claiming (does_interrupt _ nofun) (silent_interrupt _)
  matching := h.matching
  running _ hroute id := h.runFrom hroute false id

theorem resume (id : String) : Stays S I (resume env id) :=
  h.runFrom h.upholds.routeFollowUps true id

/-- A run that is started by hand has depth zero. -/
theorem startManually {d : Definition} (hgraph : Stays S I (usableGraph? d))
    (hcreate : ∀ contact node event, Stays S I (createRun env d contact node event 0))
    (contact : String) (payload : Members) :
    Stays S I (startManually env d contact payload) := by
  refine .bind hgraph fun g => ?_
  split
  · exact .throw _
  · refine .bind (.ofExcept _) fun type =>
      .bind (h.claiming (does_freshId _) (silent_freshId _)) fun id =>
      .bind (h.claiming does_now silent_now) fun time => ?_
    refine .bind (stays_inTurn _ _ (fun f => h.claiming (does_turns f) (silent_turns f))
      (hcreate _ _ _)) fun created => ?_
    split
    · exact .pure _
    · exact .bind (h.upholds.advance _) fun _ => .pure _

theorem recoverStale (time : Instant) (r : SweepReport) : Stays S I (recoverStale env time r) :=
  .bind (.ofExcept _) fun _ =>
    .bind (.bind (h.claiming (does_look _ _ (by nofun)) (silent_look _ _)) fun _ => .ofExcept _)
      fun _ =>
    .bind (stays_handleAll (fun c => h.claiming
      (does_raiseLock _ _ (.claimStale c) rfl (by nofun) trivial fun _ _ => rfl)
      (silent_raiseLock _ _ _))
      h.upholds.advance (fun _ => .pure _) _ _) fun _ => .pure _

theorem sweepAt (time : Instant) : Stays S I (sweepAt env time) :=
  stays_sweepAt
    (fun _ => .bind (h.claiming (does_look _ _ (by nofun)) (silent_look _ _)) fun _ => .ofExcept _)
    (fun c => h.claiming (does_raiseLock _ _ (.claimSuspended c) rfl (by nofun) trivial
      fun _ _ => rfl) (silent_raiseLock _ _ _))
    h.resume
    (fun c => h.claiming (does_raiseLock _ _ (.release c time) rfl (by nofun) trivial
      fun _ _ => rfl) (silent_raiseLock _ _ _))
    (h.recoverStale time)

theorem sweep : Stays S I (sweep env) :=
  .bind (h.claiming does_now silent_now) fun time => h.sweepAt time

theorem cancel (id : String) : Stays S I (cancel env id) :=
  h.claiming (does_stored .cancel (.cancel id) rfl nofun trivial fun _ _ => rfl) (silent_stored _ _)

end Serves

/-- What every deed keeps is kept by all that is done with a run or an event. -/
theorem serves_of_deed {depths : Int → Prop} {I : World σ → Prop}
    (shallow : ∀ depth ≤ env.rules.maxChainDepth, depths depth)
    (hI : ∀ w w', Deed env (.handling depths) w w' → I w → I w') :
    Serves env (Deed env (.handling depths)) I where
  claiming hx _ := (hx.mono (Remit.claiming_within_handling _)).stays hI
  walking resuming run := (((does_walkRun run resuming).mono
    (Remit.advancing_within_handling _ _)).stays hI).pre fun _ hw => hw.1
  matching e hdepth := ((does_matching e (shallow _ hdepth)).mono
    (Remit.beginning_within_handling _)).stays hI

theorem stays_startManually {depths : Int → Prop} {I : World σ → Prop}
    (shallow : ∀ depth ≤ env.rules.maxChainDepth, depths depth) (hzero : depths 0)
    (hI : ∀ w w', Deed env (.handling depths) w w' → I w → I w') (d : Definition)
    (contact : String) (payload : Members) :
    Stays (Deed env (.handling depths)) I (startManually env d contact payload) :=
  (serves_of_deed shallow hI).startManually ((does_usableGraph d trivial).stays hI)
    (fun _ _ _ => (does_createRun d _ _ _ _ trivial fun _ => hzero).stays hI) contact payload

section Handling

variable {depths : Int → Prop} (shallow : ∀ depth ≤ env.rules.maxChainDepth, depths depth)

include shallow

theorem serves_does : Serves env (Deed env (.handling depths)) fun _ => True :=
  serves_of_deed shallow fun _ _ _ _ => trivial

theorem does_runFrom {route : List Event → Engine σ Unit}
    (hroute : ∀ es, Does env (.handling depths) (route es)) (resuming : Bool) (id : String) :
    Does env (.handling depths) (runFrom env route resuming id) :=
  (serves_does shallow).runFrom hroute resuming id

theorem does_routeFollowUps (es : List Event) :
    Does env (.handling depths) (routeFollowUps env es) :=
  (serves_does shallow).upholds.routeFollowUps es

end Handling

end Engine

end CrmAutomation
