import CrmAutomation.Proofs.Engine.Calls
import CrmAutomation.Proofs.Retry.Loop

/-!
# Scripted hosts

A host that answers the calls of actions as a script tells (`Host.Plays`) leaves to be seen of a
world a `View`: the tables, the waits made, and how far the scripts are used. What each call of
the engine does to it is told by a triple, `Engine.sees_look` for one that reads and so on; an
attempt at an action comes to what the script says of it (`Engine.sees_attemptAction`). For every
script there is such a host (`Engine.scripted_plays`).
-/

namespace CrmAutomation

variable {σ α : Type}

/-! ## Scripted hosts -/

/-- What the outcome of an attempt in a script says of the answer to a call. -/
def Echoes {β : Type} : Except Failure α → Answer β → Prop
  | .ok _, answer => ∃ a, answer = .value a
  | .error f, answer => answer = .failure f

/-- A host that lets every contact be read, answers the other calls of the services by a script,
draws the numbers of another, cancels nothing and makes no call to the database fail. `place` tells
how many calls it has answered and how many numbers it has drawn. -/
structure Host.Plays (host : Host σ) (contact : Contact) (script : Nat → Except Failure α)
    (draws : Nat → Double) (place : σ → Nat × Nat) : Prop where
  freshId : ∀ kind db s, place (host.freshId kind db s).2 = place s
  draw : ∀ s, (host.draw s).1 = draws ((place s).2 + 1) ∧
    place (host.draw s).2 = ((place s).1, (place s).2 + 1)
  storage : ∀ call db s, (host.storage call db s).1 = ⟨[], none⟩ ∧
    place (host.storage call db s).2 = place s
  read : ∀ organization id db s,
    (host.service (.getContact organization id) db s).1 = ⟨[], .value (some contact)⟩ ∧
    place (host.service (.getContact organization id) db s).2 = place s
  act : ∀ call db s, (∀ organization id, call ≠ .getContact organization id) →
    (host.service call db s).1.cancelled = [] ∧
    Echoes (script ((place s).1 + 1)) (host.service call db s).1.answer ∧
    place (host.service call db s).2 = ((place s).1 + 1, (place s).2)
  wait : ∀ delay db s, (host.wait delay db s).1 = [] ∧ place (host.wait delay db s).2 = place s

/-- The action makes a call for this contact: it has something to change, or somewhere to send. -/
def Acts (config : NodeConfig) (contact : Contact) : Prop :=
  match config with
  | .moveStage stage => contact.stage.same (.str stage) = false
  | .addTag tag => contact.tags.contains tag = false
  | .removeTag tag => contact.tags.contains tag = true
  | .sendEmail _ _ => (Engine.address? contact).isSome = true
  | .webhook _ => True
  | _ => False

/-- What the outcome of an attempt in a script says of what the calls of an action come to. -/
def Conveys : Except Failure α → Answer ActionResult → Prop
  | .ok _, answer => ∃ r, answer = .value r ∧ r.ok = true ∧ r.skipped = false
  | .error f, answer => answer = .failure f

/-- What the outcome of an attempt in a script says of its result. -/
def Reports : Except Failure α → ActionResult → Prop
  | .ok _, r => r.ok = true ∧ r.skipped = false
  | .error f, r => r = .failed f.textOrKind f.isTransient

/-- An action that makes a call is registered. -/
theorem exists_kind {node : Node} {contact : Contact} (h : Acts node.config contact) :
    ∃ kind, ActionRegistry.builtin.get? node.type.text = some kind := by
  unfold Node.type
  cases hconfig : node.config with
  | trigger | condition | delay =>
    rw [hconfig] at h
    exact h.elim
  | moveStage | addTag | removeTag | sendEmail | webhook => exact ⟨_, rfl⟩

/-- The action of the node is given some time. -/
def Node.InTime (node : Node) (rules : Rules) : Prop :=
  ∀ kind, ActionRegistry.builtin.get? node.type.text = some kind →
    ((Engine.timeoutOf rules kind).lt .zero || (Engine.timeoutOf rules kind).eq .zero) = false

/-- What can be seen of a world with a scripted host. -/
structure View where
  db : Database
  waits : List Double
  made : Nat
  drawn : Nat

def World.Shows (place : σ → Nat × Nat) (v : View) (w : World σ) : Prop :=
  w.db = v.db ∧ w.waits = v.waits ∧ place w.host = (v.made, v.drawn)

namespace Engine

variable {env : Environment σ} {contact : Contact} {script : Nat → Except Failure α}
  {draws : Nat → Double} {place : σ → Nat × Nat} {v : View}

section Calls

variable (plays : env.host.Plays contact script draws place)
include plays

theorem shows_interrupted (call : StorageCall) {w : World σ} (hw : w.Shows place v) :
    (w.interrupted env call).Shows place v := by
  obtain ⟨hdb, hwaits, hplace⟩ := hw
  obtain ⟨hstorage, hkeeps⟩ := plays.storage call w.db w.host
  refine ⟨?_, hwaits, hkeeps.trans hplace⟩
  simp only [World.interrupted, World.conceded, hstorage]
  exact hdb

theorem sees_look {β : Type} (call : StorageCall) (query : Database → β) :
    Leads Any (World.Shows place v) (look env call query)
      (fun a w => a = query v.db ∧ w.Shows place v) fun _ => False := by
  intro w hw
  have hw' := shows_interrupted plays call hw
  rw [run_look, (plays.storage call w.db w.host).1]
  exact ⟨.single trivial, congrArg query hw'.1, hw'⟩

theorem sees_stored {β : Type} (call : StorageCall)
    (change : Instant → Database → β × Database) :
    Leads Any (World.Shows place v) (stored env call change)
      (fun a w => ∃ time, a = (change time v.db).1 ∧
        w.Shows place { v with db := (change time v.db).2 }) fun _ => False := by
  intro w hw
  obtain ⟨hdb, hwaits, hplace⟩ := shows_interrupted plays call hw
  rw [run_stored, (plays.storage call w.db w.host).1]
  refine ⟨.single trivial, (w.interrupted env call).clock.later 1, ?_, ?_, hwaits, hplace⟩
  · rw [hdb]
  · rw [hdb]

theorem sees_draw : Leads Any (World.Shows place v) (monadLift (draw env))
    (fun d w => d = draws (v.drawn + 1) ∧ w.Shows place { v with drawn := v.drawn + 1 })
    fun _ => False := by
  rintro w ⟨hdb, hwaits, hplace⟩
  obtain ⟨hdraw, hnext⟩ := plays.draw w.host
  rw [hplace] at hdraw hnext
  exact ⟨.single trivial, hdraw, hdb, hwaits, hnext⟩

theorem sees_wait (delay : Double) : Leads Any (World.Shows place v) (wait env delay)
    (fun _ w => w.Shows place { v with waits := v.waits ++ [delay] }) fun _ => False := by
  rintro w ⟨hdb, hwaits, hplace⟩
  obtain ⟨hwait, hkeeps⟩ := plays.wait delay w.db w.host
  refine ⟨.single trivial, ?_, congrArg (· ++ [delay]) hwaits, hkeeps.trans hplace⟩
  change cancelAll _ (env.host.wait delay w.db w.host).1 w.db = v.db
  rw [hwait]
  exact hdb

theorem sees_freshId (kind : IdKind) : Leads Any (World.Shows place v) (freshId env kind)
    (fun _ w => w.Shows place v) fun _ => False := by
  rintro w ⟨hdb, hwaits, hplace⟩
  exact ⟨.single trivial, hdb, hwaits, (plays.freshId kind w.db w.host).trans hplace⟩

omit plays in
theorem sees_now : Leads Any (World.Shows place v) (now : Engine σ Instant)
    (fun _ w => w.Shows place v) fun _ => False :=
  fun _ hw => ⟨.single trivial, hw⟩

theorem sees_read (organization id : String) :
    Leads Any (World.Shows place v) (ask env (.getContact organization id))
      (fun answer w => answer = .value (some contact) ∧ w.Shows place v) fun _ => False := by
  rintro w ⟨hdb, hwaits, hplace⟩
  obtain ⟨hread, hkeeps⟩ := plays.read organization id w.db w.host
  refine ⟨.single trivial, ?_, ?_, hwaits, hkeeps.trans hplace⟩
  · exact congrArg Reaction.answer hread
  · change cancelAll _ (env.host.service (.getContact organization id) w.db w.host).1.cancelled
      w.db = v.db
    rw [hread]
    exact hdb

theorem sees_act (call : ServiceCall)
    (acts : ∀ organization id, call ≠ .getContact organization id) :
    Leads Any (World.Shows place v) (ask env call)
      (fun answer w => Echoes (script (v.made + 1)) answer ∧
        w.Shows place { v with made := v.made + 1 }) fun _ => False := by
  rintro w ⟨hdb, hwaits, hplace⟩
  obtain ⟨hcancelled, hechoes, hnext⟩ := plays.act call w.db w.host acts
  rw [hplace] at hechoes hnext
  refine ⟨.single trivial, hechoes, ?_, hwaits, hnext⟩
  change cancelAll _ (env.host.service call w.db w.host).1.cancelled w.db = v.db
  rw [hcancelled]
  exact hdb

theorem sees_record {r : NodeRecord} (fits : Database.fitsColumn r.attempt = true)
    (first : ∀ o ∈ v.db.recordsOf r.run r.node, o.attempt ≠ r.attempt) :
    Leads Any (World.Shows place v)
      (record env r.run r.node r.nodeType r.attempt r.outcome r.error r.output)
      (fun _ w => ∃ time, w.Shows place { v with
        db := { v.db with records := v.db.records ++ [{ r with executedAt := time }] } })
      fun _ => False := by
  intro w hw
  obtain ⟨hdb, hwaits, hplace⟩ := shows_interrupted plays .record hw
  have fresh : (v.db.records.any fun o => o.run == r.run && o.node == r.node &&
      o.attempt == r.attempt) = false := by
    simp only [List.any_eq_false, Bool.and_eq_true, beq_iff_eq, not_and]
    exact fun o ho same other => first o (List.mem_filter.2 ⟨ho, by simp [same.1, same.2]⟩) other
  have accepted : Database.record { r with executedAt := (w.interrupted env .record).clock.later 1 }
      v.db = .ok ({ r with executedAt := (w.interrupted env .record).clock.later 1 }, { v.db with
        records := v.db.records ++
          [{ r with executedAt := (w.interrupted env .record).clock.later 1 }] }) := by
    simp only [Database.record, fits, fresh]
    rfl
  rw [record, run_interrupt_bind, (plays.storage .record w.db w.host).1]
  dsimp only
  rw [run_commit, hdb, accepted]
  exact ⟨.single trivial, _, rfl, hwaits, hplace⟩

/-! ## Attempts -/

omit plays in
theorem sees_followUp (plays : env.host.Plays contact script draws place) (c : ActionContext)
    (type : EventType) (payload : Members) : Leads Any (World.Shows place v)
      (followUp env c type payload) (fun _ w => w.Shows place v) fun _ => False := by
  unfold followUp
  split
  · exact .bind (sees_freshId plays _) fun _ => .bind sees_now fun _ => .pure _ fun _ hw => hw
  · exact .pure _ fun _ hw => hw

/-- A call whose failure is passed on and whose value makes a success. -/
theorem sees_act_then {call : ServiceCall}
    {k : Answer call.Result → Engine σ (Answer ActionResult)}
    (acts : ∀ organization id, call ≠ .getContact organization id)
    (failed : ∀ f, k (.failure f) = pure (.failure f))
    (succeeded : ∀ a v', Leads Any (World.Shows place v') (k (.value a))
      (fun answer w => (∃ r, answer = .value r ∧ r.ok = true ∧ r.skipped = false) ∧
        w.Shows place v') fun _ => False) :
    Leads Any (World.Shows place v) (ask env call >>= k)
      (fun answer w => Conveys (script (v.made + 1)) answer ∧
        w.Shows place { v with made := v.made + 1 }) fun _ => False := by
  refine .bind (sees_act plays call acts) fun answer => ?_
  refine .assume (p := Echoes (script (v.made + 1)) answer) (fun _ hw => hw.1) fun echoes => ?_
  refine .pre ?_ fun _ hw => hw.2
  cases hscript : script (v.made + 1) with
  | error f =>
    rw [hscript] at echoes
    rw [show answer = .failure f from echoes, failed]
    exact .pure _ fun _ hw => ⟨rfl, hw⟩
  | ok a =>
    rw [hscript] at echoes
    obtain ⟨b, rfl⟩ := echoes
    exact succeeded b _

/-- The calls of an action come to what the script says of the only one that the script answers. -/
theorem sees_execute {c : ActionContext} (acts : Acts c.node.config c.contact) :
    Leads Any (World.Shows place v) (execute env c)
      (fun answer w => Conveys (script (v.made + 1)) answer ∧
        w.Shows place { v with made := v.made + 1 }) fun _ => False := by
  -- An action that tells of its change by a follow-up event.
  have announces (type : EventType) (payload : Members) (f : List Event → ActionResult)
      (hf : ∀ emitted, (f emitted).ok = true ∧ (f emitted).skipped = false) (v' : View) :
      Leads Any (World.Shows place v')
        (do return Answer.value (← (do return f (← followUp env c type payload))))
        (fun answer w => (∃ r, answer = .value r ∧ r.ok = true ∧ r.skipped = false) ∧
          w.Shows place v') fun _ => False := by
    refine .bind (B := fun r w => (r.ok = true ∧ r.skipped = false) ∧ w.Shows place v') ?_
      fun r => .pure _ fun _ hw => ⟨⟨r, rfl, hw.1⟩, hw.2⟩
    exact .bind (sees_followUp plays c type payload) fun emitted =>
      .pure _ fun _ hw => ⟨hf emitted, hw⟩
  unfold execute
  cases hconfig : c.node.config with
  | moveStage stage =>
    rw [hconfig] at acts
    simp only [moveStage, show c.contact.stage.same (.str stage) = false from acts]
    exact sees_act_then plays (by simp) (fun _ => rfl) fun _ => announces _ _ _ fun _ => ⟨rfl, rfl⟩
  | addTag tag =>
    rw [hconfig] at acts
    simp only [addTag, show c.contact.tags.contains tag = false from acts]
    exact sees_act_then plays (by simp) (fun _ => rfl) fun _ => announces _ _ _ fun _ => ⟨rfl, rfl⟩
  | removeTag tag =>
    rw [hconfig] at acts
    simp only [removeTag, show c.contact.tags.contains tag = true from acts]
    exact sees_act_then plays (by simp) (fun _ => rfl) fun _ => announces _ _ _ fun _ => ⟨rfl, rfl⟩
  | sendEmail template fromName =>
    rw [hconfig] at acts
    obtain ⟨address, haddress⟩ := Option.isSome_iff_exists.mp acts
    simp only [sendEmail, haddress]
    exact sees_act_then plays (by simp) (fun _ => rfl) fun _ _ =>
      .pure _ fun _ hw => ⟨⟨_, rfl, rfl, rfl⟩, hw⟩
  | webhook endpoint =>
    exact sees_act_then plays (by simp) (fun _ => rfl) fun _ _ =>
      .pure _ fun _ hw => ⟨⟨_, rfl, rfl, rfl⟩, hw⟩
  | trigger | condition | delay =>
    rw [hconfig] at acts
    exact acts.elim

/-- What is made of the calls of an action, `f` taking their answer for the result. -/
theorem sees_executeInTime {c : ActionContext} (acts : Acts c.node.config c.contact)
    {timeout : Double} (time : (timeout.lt .zero || timeout.eq .zero) = false)
    {f : Answer ActionResult → Engine σ ActionResult} (value : ∀ r, f (.value r) = pure r)
    (failure : ∀ e, f (.failure e) = pure (.failed e.textOrKind e.isTransient)) :
    Leads Any (World.Shows place v) (executeInTime env c timeout >>= f)
      (fun r w => Reports (script (v.made + 1)) r ∧
        w.Shows place { v with made := v.made + 1 }) fun _ => False := by
  rw [executeInTime, if_neg (by rw [time]; exact Bool.false_ne_true)]
  refine .bind (sees_execute plays acts) fun answer => ?_
  refine .assume (p := Conveys (script (v.made + 1)) answer) (fun _ hw => hw.1) fun conveys => ?_
  refine .pre ?_ fun _ hw => hw.2
  cases hscript : script (v.made + 1) with
  | error e =>
    rw [hscript] at conveys
    rw [show answer = .failure e from conveys, failure]
    exact .pure _ fun _ hw => ⟨rfl, hw⟩
  | ok a =>
    rw [hscript] at conveys
    obtain ⟨r, rfl, hr⟩ := conveys
    rw [value]
    exact .pure _ fun _ hw => ⟨hr, hw⟩

/-- An attempt at an action comes to what the script says of it. -/
theorem sees_attemptAction {run : Run} {node : Node} (number : Int)
    (acts : Acts node.config contact) (inTime : node.InTime env.rules)
    (unsent : v.db.hasSuccess run.id node.id = false) :
    Leads Any (World.Shows place v) (attemptAction env run node number)
      (fun r w => Reports (script (v.made + 1)) r ∧
        w.Shows place { v with made := v.made + 1 }) fun _ => False := by
  have read : Leads Any (World.Shows place v)
      (attempt (demand env (.getContact run.organization run.contact)))
      (fun r w => r = .ok (some contact) ∧ w.Shows place v) fun _ => False := by
    refine .attempt (B := fun r w => r = some contact ∧ w.Shows place v) (X := fun _ => False)
      (.bind (sees_read plays _ _) fun answer => ?_) (fun _ _ hw => ⟨hw.1 ▸ rfl, hw.2⟩)
      fun _ _ hw => hw.elim
    refine .assume (p := answer = .value (some contact)) (fun _ hw => hw.1) ?_
    rintro rfl
    exact .pure _ fun _ hw => ⟨rfl, hw.2⟩
  refine .bind read fun r => .assume (p := r = .ok (some contact)) (fun _ hw => hw.1) ?_
  rintro rfl
  refine .pre (A := World.Shows place v) ?_ fun _ hw => hw.2
  obtain ⟨kind, hkind⟩ := exists_kind acts
  simp only [dispatch, hkind]
  split
  · refine .bind (sees_look plays _ _) fun found => .assume (p := found = false)
      (fun _ hw => hw.1.trans unsent) ?_
    rintro rfl
    exact (sees_executeInTime plays (c := ⟨run, node, contact, number⟩) acts (inTime kind hkind)
      (fun _ => rfl) fun _ => rfl).pre fun _ hw => hw.2
  · exact sees_executeInTime plays (c := ⟨run, node, contact, number⟩) acts (inTime kind hkind)
      (fun _ => rfl) fun _ => rfl

end Calls

/-! ## A scripted host -/

/-- The answer that an outcome is. -/
def answerOf {β : Type} (b : β) : Except Failure α → Answer β
  | .ok _ => .value b
  | .error f => .failure f

theorem echoes_answerOf {β : Type} (b : β) (o : Except Failure α) : Echoes o (answerOf b o) := by
  cases o with
  | ok a => exact ⟨b, rfl⟩
  | error f => rfl

/-- What a service call brings that succeeds. -/
def anyResult : (call : ServiceCall) → call.Result
  | .getContact .. => none
  | .stageExists .. | .tagExists .. | .templateExists .. | .endpointExists .. => true
  | .sendTemplate .. => Value.null
  | .deliver .. => (200 : Int)
  | .setStage .. | .addTag .. | .removeTag .. | .close .. => ()

/-- A host that plays scripts; its state is how far it has come. -/
def scripted (contact : Contact) (script : Nat → Except Failure α) (draws : Nat → Double) :
    Host (Nat × Nat) where
  freshId := fun _ _ s => ("id", s)
  draw := fun s => (draws (s.2 + 1), (s.1, s.2 + 1))
  storage := fun _ _ s => (⟨[], none⟩, s)
  service := fun call _ s => match call with
    | .getContact _ _ => (⟨[], .value (some contact)⟩, s)
    | call => (⟨[], answerOf (anyResult call) (script (s.1 + 1))⟩, (s.1 + 1, s.2))
  wait := fun _ _ s => ([], s)

theorem scripted_plays (contact : Contact) (script : Nat → Except Failure α)
    (draws : Nat → Double) : (scripted contact script draws).Plays contact script draws id where
  freshId := fun _ _ _ => rfl
  draw := fun _ => ⟨rfl, rfl⟩
  storage := fun _ _ _ => ⟨rfl, rfl⟩
  read := fun _ _ _ _ => ⟨rfl, rfl⟩
  act := by
    intro call db s acts
    cases call with
    | getContact organization id => exact absurd rfl (acts organization id)
    | _ => exact ⟨rfl, echoes_answerOf _ _, rfl⟩
  wait := fun _ _ _ => ⟨rfl, rfl⟩

end Engine

end CrmAutomation
