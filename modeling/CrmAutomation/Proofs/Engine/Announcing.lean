import CrmAutomation.Proofs.Engine.Cascade
import CrmAutomation.Proofs.Engine.Changes
import CrmAutomation.Proofs.Engine.Replies

/-!
# What is told of changes

The events of the actions of a run are gathered while it is executed, over all its nodes and all the
attempts at them, and are handed on when the execution is over, however it has ended. There is one
event for each call that has changed the contact (`ServiceReply.isChange`), in the order of the
calls, and no other one (`Engine.execution_announces_changes`).

The invariant is that the events gathered so far tell of the replies so far (`Told`). Between a
change and the moment when its event is gathered the attempt is recorded, so this record must not be
refused. It is not as long as a column holds its number, and no step adds more than one to the
greatest number of the trail. So it is enough that this number leaves room for the steps that are
left (`Counted`, `Engine.tallies_walk`).
-/

namespace CrmAutomation

variable {σ α β : Type}

/-- A run that is found running is found as it was. -/
theorem Run.Conceded.eq_of_running {r r' : Run} (h : r.Conceded r')
    (running : r'.state = .running) : r' = r := by
  rcases h with rfl | ⟨-, time, rfl⟩
  · rfl
  · cases running

/-- The answer brings something. -/
def Answer.isValue : Answer α → Bool
  | .value _ => true
  | _ => false

/-- A call that changes a contact has returned. -/
def ServiceReply.isChange (r : ServiceReply) : Bool := r.call.news?.isSome && r.answer.isValue

/-- The event tells of a change that was made for the run. -/
structure Announces (run : Run) (r : ServiceReply) (e : Event) : Prop where
  news : ∃ key id, r.call.news? = some (e.type, key, id) ∧ e.payloadValue key = .str id
  organization_eq : e.organization = run.organization
  contact_eq : e.contact = run.contact
  chainDepth_eq : e.chainDepth = run.chainDepth + 1

/-- The replies of which events tell: the changes, unless follow-ups are switched off. -/
def Environment.newsOf (env : Environment σ) (made : List ServiceReply) : List ServiceReply :=
  if env.rules.emitFollowUps then made.filter (·.isChange) else []

/-- None of the calls changes a contact. -/
def AreHarmless (calls : List ServiceCall) : Prop := ∀ call ∈ calls, call.news? = none

theorem areHarmless_nil : AreHarmless [] := List.forall_mem_nil _

theorem areHarmless_single {call : ServiceCall} (h : call.news? = none) : AreHarmless [call] :=
  List.forall_mem_singleton.2 h

theorem AreReads.harmless {calls : List ServiceCall} (h : AreReads calls) : AreHarmless calls := by
  intro call hcall
  obtain ⟨organization, contact, rfl⟩ := h call hcall
  rfl

namespace Environment

variable (env : Environment σ)

theorem newsOf_append (made more : List ServiceReply) :
    env.newsOf (made ++ more) = env.newsOf made ++ env.newsOf more := by
  unfold newsOf
  split
  · exact List.filter_append _ _
  · rfl

theorem newsOf_eq_nil {made : List ServiceReply} (h : ∀ r ∈ made, r.isChange = false) :
    env.newsOf made = [] := by
  unfold newsOf
  split
  · exact List.filter_eq_nil_iff.2 fun r hr => by simp [h r hr]
  · rfl

theorem newsOf_of_harmless {made : List ServiceReply} (h : AreHarmless (made.map (·.call))) :
    env.newsOf made = [] :=
  env.newsOf_eq_nil fun r hr => by simp [ServiceReply.isChange, h r.call (List.mem_map_of_mem hr)]

end Environment

/-- The events tell of what was answered since. -/
def Told (env : Environment σ) (run : Run) (before : List ServiceReply) (events : List Event)
    (after : List ServiceReply) : Prop :=
  ∃ made, after = before ++ made ∧ List.Forall₂ (Announces run) (env.newsOf made) events

namespace Told

variable {env : Environment σ} {run : Run} {a b c : List ServiceReply} {es es' : List Event}

theorem of_newsOf_eq_nil {made : List ServiceReply} (h : env.newsOf made = []) :
    Told env run a [] (a ++ made) :=
  ⟨made, rfl, h ▸ .nil⟩

theorem refl (env : Environment σ) (run : Run) (a : List ServiceReply) : Told env run a [] a :=
  ⟨[], (List.append_nil _).symm, by rw [env.newsOf_eq_nil (List.forall_mem_nil _)]; exact .nil⟩

theorem trans (h : Told env run a es b) (h' : Told env run b es' c) :
    Told env run a (es ++ es') c := by
  obtain ⟨made, rfl, htold⟩ := h
  obtain ⟨more, rfl, htold'⟩ := h'
  refine ⟨made ++ more, List.append_assoc .., ?_⟩
  rw [env.newsOf_append]
  exact List.rel_append htold htold'

/-- What is answered without a change is not told of. -/
theorem append (h : Told env run a es b) {more : List ServiceReply} (hmore : env.newsOf more = []) :
    Told env run a es (b ++ more) := by
  simpa using h.trans (of_newsOf_eq_nil hmore)

end Told

/-- Nothing was recorded since, and the events tell of what was answered. -/
structure Account.Since (env : Environment σ) (run : Run) (before : Account) (events : List Event)
    (after : Account) : Prop where
  records_eq : after.records = before.records
  told : Told env run before.replies events after.replies

/-- The events of a result that are gathered. -/
def ActionResult.gathered (r : ActionResult) : List Event := if r.ok then r.emitted else []

/-- The events of an answer that are gathered. -/
def Answer.gathered : Answer ActionResult → List Event
  | .value r => r.gathered
  | _ => []

namespace Engine

variable {env : Environment σ} {run : Run} {b : Account}

theorem Silent.asksHarmless {x : Engine σ α} (silent : Silent x) : Asks AreHarmless x :=
  silent.mono fun _ h => h ▸ areHarmless_nil

/-! ## Attempts -/

/-- What `x` returns has these events, and they tell of the changes that it has made. -/
abbrev Gathers (env : Environment σ) (run : Run) (events : α → List Event)
    (x : Engine (σ × List ServiceReply) α) : Prop :=
  ∀ b, Leads Any (fun w => w.account = b) x (fun a w => b.Since env run (events a) w.account)
    fun _ => True

namespace Gathers

variable {events : α → List Event} {events' : β → List Event} {x : Engine (σ × List ServiceReply) α}
  {f : α → Engine (σ × List ServiceReply) β}

theorem pure {a : α} (h : events a = []) :
    Gathers env run events (Pure.pure a : Engine (σ × List ServiceReply) α) := by
  rintro _ w rfl
  exact ⟨.refl, rfl, h ▸ .refl env run _⟩

/-- What makes no change. -/
theorem harmless (hx : Does env.answered .unrecording x) (asks : Asks AreHarmless x) :
    Gathers env run (fun _ => []) x := by
  rintro _ w rfl
  obtain ⟨made, haccount, hmade⟩ := hx.exists_account asks w
  have since : w.account.Since env run [] (x.run w).2.account :=
    haccount ▸ ⟨rfl, .of_newsOf_eq_nil (env.newsOf_of_harmless hmade)⟩
  refine ⟨.single trivial, ?_⟩
  split
  · exact since
  · trivial

theorem bind (hx : Gathers env run (fun _ => []) x) (hf : ∀ a, Gathers env run events' (f a)) :
    Gathers env run events' (x >>= f) := by
  refine fun b => Leads.bind (hx b) fun a => ?_
  rintro w ⟨hrecords, htold⟩
  have since : Leads Any (fun v => v.account = w.account) (f a)
      (fun c v => b.Since env run (events' c) v.account) fun _ => True :=
    (hf a w.account).post fun _ _ h => ⟨h.records_eq.trans hrecords, htold.trans h.told⟩
  exact since w rfl

/-- What follows only makes something of the value. -/
theorem andThen (hx : Gathers env run events x)
    (hf : ∀ a, ∃ r, f a = Pure.pure r ∧ events' r = events a) :
    Gathers env run events' (x >>= f) := by
  refine fun b => Leads.bind (hx b) fun a => ?_
  obtain ⟨r, hr, hevents⟩ := hf a
  rw [hr]
  exact .pure r fun _ hw => hevents ▸ hw

end Gathers

/-- A follow-up event carries what it is given, one deeper than the run. -/
theorem leads_followUp (c : ActionContext) (type : EventType) (payload : Members) :
    Leads Any (fun w => w.account = b) (followUp env.answered c type payload)
      (fun es w => w.account = b ∧ if env.rules.emitFollowUps then ∃ e : Event, es = [e] ∧
          e.type = type ∧ e.organization = c.run.organization ∧ e.contact = c.run.contact ∧
          e.payload = Members.merge payload
            [("source", .str "automation"), ("runId", .str c.run.id)] ∧
          e.chainDepth = c.run.chainDepth + 1
        else es = []) fun _ => False := by
  intro w hw
  have hrules : env.answered.rules = env.rules := rfl
  unfold followUp
  rw [hrules]
  split
  · exact ⟨.single trivial, hw, _, rfl, rfl, rfl, rfl, rfl, rfl⟩
  · exact ⟨.refl, hw, rfl⟩

/-- An action that aims at something tells of the change that it makes, if it makes one. -/
theorem gathers_change (c : ActionContext) {target : String × String}
    (aims : c.node.config.target? = some target) :
    Gathers env c.run Answer.gathered (execute env.answered c) := by
  by_cases met : c.node.config.isMet c.contact = true
  · rw [execute_of_met aims met]
    exact .pure rfl
  obtain ⟨call, changes⟩ := c.node.config.exists_change aims c.run.organization c.run.contact
  obtain ⟨type, key, id, news, hpayload⟩ := NodeConfig.exists_news changes c.contact
  rw [execute_of_unmet changes (Bool.eq_false_iff.2 met) news]
  refine fun b => .bind ((leads_ask_account call).fails fun _ => False.elim) fun answer => ?_
  have unchanged (failed : answer.isValue = false) :
      b.Since env c.run [] { b with replies := b.replies ++ [⟨call, answer⟩] } := by
    refine ⟨rfl, .of_newsOf_eq_nil (env.newsOf_eq_nil (List.forall_mem_singleton.2 ?_))⟩
    rw [ServiceReply.isChange, failed, Bool.and_false]
  cases answer with
  | failure f => exact .pure _ fun w hw => hw ▸ unchanged rfl
  | silence => exact .pure _ fun w hw => hw ▸ unchanged rfl
  | value a =>
    refine .bind (.bind (.fails (leads_followUp c type _) fun _ => False.elim) fun es =>
      .pure (B := fun (r : ActionResult) w => b.Since env c.run r.gathered w.account) _ ?_)
      fun r => .pure _ fun _ hw => hw
    rintro w ⟨hw, hes⟩
    have change : ServiceReply.isChange ⟨call, .value a⟩ = true := by
      rw [ServiceReply.isChange, news]
      rfl
    refine hw ▸ ⟨rfl, _, rfl, ?_⟩
    unfold Environment.newsOf
    split at hes
    · rename_i on
      obtain ⟨e, rfl, rfl, horganization, hcontact, hmerged, hdepth⟩ := hes
      rw [if_pos on, List.filter_singleton, change]
      exact .cons ⟨⟨key, id, news, hpayload e _ _ hmerged⟩, horganization, hcontact, hdepth⟩ .nil
    · rename_i off
      rw [if_neg off, hes]
      exact .nil

theorem gathers_execute (c : ActionContext) :
    Gathers env c.run Answer.gathered (execute env.answered c) := by
  -- Mails and webhooks make one call each, which changes no contact.
  have sends (call : ServiceCall) (news : call.news? = none)
      (f : Answer call.Result → Engine (σ × List ServiceReply) (Answer ActionResult))
      (hf : ∀ answer, ∃ r, f answer = Pure.pure r ∧ r.gathered = []) :
      Gathers env c.run Answer.gathered (ask env.answered call >>= f) :=
    .andThen (.harmless (does_ask call)
      ((asks_ask call).mono fun _ h => h ▸ areHarmless_single news)) hf
  cases hconfig : c.node.config with
  | moveStage | addTag | removeTag => exact gathers_change c (by rw [hconfig]; rfl)
  | sendEmail template fromName =>
    unfold execute sendEmail
    rw [hconfig]
    dsimp only
    split
    · exact .pure rfl
    · exact sends _ rfl _ fun answer => by cases answer <;> exact ⟨_, rfl, rfl⟩
  | webhook endpoint =>
    unfold execute callWebhook
    rw [hconfig]
    exact sends _ rfl _ fun answer => by cases answer <;> exact ⟨_, rfl, rfl⟩
  | _ =>
    unfold execute
    rw [hconfig]
    exact .pure rfl

theorem gathers_dispatch (c : ActionContext) :
    Gathers env c.run ActionResult.gathered (dispatch env.answered c) := by
  have inTime (timeout : Double) :
      Gathers env c.run Answer.gathered (executeInTime env.answered c timeout) := by
    unfold executeInTime
    split
    · exact .pure rfl
    · exact gathers_execute c
  unfold dispatch
  split
  · exact .pure rfl
  · dsimp only
    split
    · refine .bind (.harmless (does_look _ _ nofun) (silent_look _ _).asksHarmless) fun found => ?_
      split
      · exact .pure rfl
      · exact .andThen (inTime _) fun answer => by cases answer <;> exact ⟨_, rfl, rfl⟩
    · exact .andThen (inTime _) fun answer => by cases answer <;> exact ⟨_, rfl, rfl⟩

/-- An attempt at an action has the events that tell of what it has changed. -/
theorem gathers_attemptAction (node : Node) (number : Int) :
    Gathers env run ActionResult.gathered (attemptAction env.answered run node number) := by
  refine .bind (.harmless (does_demand _).attempt (asks_attempt ((asks_demand _).mono
    fun _ h => h ▸ areHarmless_single rfl))) fun answer => ?_
  split
  · exact .pure rfl
  · exact .pure rfl
  · exact gathers_dispatch ⟨run, node, _, number⟩

end Engine

/-! ## Room for attempts -/

/-- Attempts are counted from one on, up to the limit at most. -/
def Counted (limit : Int) (records : List NodeRecord) : Prop :=
  ∀ o ∈ records, 0 < o.attempt ∧ o.attempt ≤ limit

/-- So they are, and those at the node come before the number. -/
structure Awaits (limit : Int) (run node : String) (number : Int) (records : List NodeRecord) :
    Prop where
  counted : Counted limit records
  earlier : ∀ o ∈ records, o.run = run → o.node = node → o.attempt < number

theorem Counted.mono {m n : Int} {records : List NodeRecord} (h : Counted m records) (le : m ≤ n) :
    Counted n records :=
  fun o ho => ⟨(h o ho).1, (h o ho).2.trans le⟩

theorem Awaits.append {limit number : Int} {run node : String} {records : List NodeRecord}
    (h : Awaits limit run node number records) {o : NodeRecord} (pos : 0 < number)
    (le : number ≤ limit) (heq : o.attempt = number) :
    Awaits limit run node (number + 1) (records ++ [o]) := by
  refine ⟨fun r hr => ?_, fun r hr hrun hnode => ?_⟩
  · rcases List.mem_append.1 hr with hr | hr
    · exact h.counted r hr
    · rw [List.mem_singleton.1 hr, heq]
      exact ⟨pos, le⟩
  · rcases List.mem_append.1 hr with hr | hr
    · have := h.earlier r hr hrun hnode
      omega
    · rw [List.mem_singleton.1 hr, heq]
      omega

theorem Awaits.mono {m n number : Int} {run node : String} {records : List NodeRecord}
    (h : Awaits m run node number records) (le : m ≤ n) : Awaits n run node number records :=
  ⟨h.counted.mono le, h.earlier⟩

namespace Database

variable {db : Database} {limit : Int}

theorem foldl_max_le {a : Int} {l : List Int} (ha : a ≤ limit) (hl : ∀ i ∈ l, i ≤ limit) :
    l.foldl max a ≤ limit := by
  induction l generalizing a with
  | nil => exact ha
  | cons i l ih =>
    exact ih (Int.max_le.2 ⟨ha, hl i List.mem_cons_self⟩)
      fun j hj => hl j (List.mem_cons_of_mem i hj)

/-- The next attempt is one more than the limit at most. -/
theorem nextAttempt_le (nonneg : 0 ≤ limit) (h : Counted limit db.records) (run node : String) :
    db.nextAttempt run node ≤ limit + 1 := by
  unfold nextAttempt
  split
  · omega
  · rename_i a rest heq
    have le : ∀ i ∈ a :: rest, i ≤ limit := by
      rw [← heq]
      exact List.forall_mem_map.2 fun o ho => (h o (List.mem_filter.1 ho).1).2
    have := foldl_max_le (le a List.mem_cons_self) fun i hi => le i (List.mem_cons_of_mem a hi)
    omega

theorem awaits_nextAttempt (h : Counted limit db.records) (run node : String) :
    Awaits limit run node (db.nextAttempt run node) db.records := by
  refine ⟨h, ?_⟩
  rintro o ho rfl rfl
  exact attempt_lt_nextAttempt ho

end Database

/-! ## Walks -/

/-- The events gathered so far tell of the replies so far, and the trail is like this. -/
structure Tally (env : Environment σ) (run : Run) (before : List ServiceReply)
    (R : List NodeRecord → Prop) (events : List Event) (b : Account) : Prop where
  told : Told env run before events b.replies
  trail : R b.records

/-- What writes no record and makes no change is not told of. -/
theorem Engine.stays_tally {env : Environment σ} {run : Run} {before : List ServiceReply}
    {R : List NodeRecord → Prop} {es : List Event} {x : Engine (σ × List ServiceReply) α}
    (hx : Does env.answered .unrecording x) (asks : Asks AreHarmless x) :
    Stays Any (fun w => Tally env run before R es w.account) x := by
  refine stays_iff.2 fun w hw => ⟨.single trivial, ?_⟩
  obtain ⟨made, haccount, hmade⟩ := hx.exists_account asks w
  exact haccount ▸ ⟨hw.told.append (env.newsOf_of_harmless hmade), hw.trail⟩

namespace Walk

variable {env : Environment σ} {run : Run} {before : List ServiceReply}
  {R R' R'' : List NodeRecord → Prop}

/-- Whether `x` comes to its end or is halted, the events gathered tell of the replies. -/
abbrev Tallies (env : Environment σ) (run : Run) (before : List ServiceReply)
    (R R' : List NodeRecord → Prop) (x : Walk (σ × List ServiceReply) α) : Prop :=
  Leads Engine.Any (fun p w => Tally env run before R p.outcome.emitted w.account) x
    (fun _ p w => Tally env run before R' p.outcome.emitted w.account)
    fun _ p w => Told env run before p.outcome.emitted w.replies

namespace Tallies

variable {x : Walk (σ × List ServiceReply) α} {f : α → Walk (σ × List ServiceReply) β}

theorem bind (hx : Tallies env run before R R' x) (hf : ∀ a, Tallies env run before R' R'' (f a)) :
    Tallies env run before R R'' (x >>= f) :=
  Leads.bind hx hf

theorem pure (a : α) : Tallies env run before R R (Pure.pure a) := Leads.pure a fun _ _ hp => hp

theorem halt : Tallies env run before R R' (Walk.halt : Walk (σ × List ServiceReply) α) :=
  Leads.halt fun _ _ hp => hp.told

theorem progress : Tallies env run before R R Walk.progress := Leads.progress fun _ _ hp => hp

theorem update {f : Progress → Progress} (hf : ∀ p, (f p).outcome.emitted = p.outcome.emitted) :
    Tallies env run before R R (Walk.update f) :=
  Leads.update fun p _ hp => (hf p).symm ▸ hp

theorem settle (state : Option RunState) : Tallies env run before R R (Walk.settle state) :=
  update fun _ => rfl

theorem mono (hx : Tallies env run before R R' x) (h : ∀ l, R'' l → R l) :
    Tallies env run before R'' R' x :=
  Leads.pre hx fun _ _ hp => ⟨hp.told, h _ hp.trail⟩

/-- What only needs the attempts to be counted may come before the next one is recorded. -/
theorem counted {limit number : Int} {node : String}
    (hx : Tallies env run before (Counted limit) R x) :
    Tallies env run before (Awaits limit run.id node number) R x :=
  hx.mono fun _ h => h.counted

/-- What is known of the trail in the end may be forgotten. -/
theorem forget (hx : Tallies env run before R R' x) :
    Tallies env run before R (fun _ => True) x :=
  Leads.conseq hx (fun _ _ hp => hp) (fun _ _ _ hp => ⟨hp.told, trivial⟩) fun _ _ _ hp => hp

theorem engine {x : Engine (σ × List ServiceReply) α} (hx : ∀ es,
      Engine.Stays Engine.Any (fun w => Tally env run before R es w.account) x) :
    Tallies env run before R R (Walk.engine x) :=
  Leads.engine (fun p => hx p.outcome.emitted) fun _ _ _ hp => hp.told

end Tallies

end Walk

namespace Engine

variable {env : Environment σ} {run : Run} {before : List ServiceReply}
  {R R' : List NodeRecord → Prop}

theorem tallies_silent {x : Engine (σ × List ServiceReply) α}
    (hx : Does env.answered .unrecording x) (silent : Silent x) :
    Walk.Tallies env run before R R (Walk.engine x) :=
  .engine fun _ => stays_tally hx silent.asksHarmless

/-- The next attempt is recorded if there is room for it. -/
theorem tallies_record (reliable : env.host.Reliable) {limit number : Int} {node : Node}
    (fits : Database.fitsColumn limit = true) (pos : 0 < number) (le : number ≤ limit)
    (nodeType : String) (outcome : NodeOutcome) (error : Option String) (output : Option Value)
    (es : List Event) :
    Leads Any (fun w => Tally env run before (Awaits limit run.id node.id number) es w.account)
      (record env.answered run.id node.id nodeType number outcome error output)
      (fun _ w => Tally env run before (Awaits limit run.id node.id (number + 1)) es w.account)
      fun _ => False := by
  intro w hw
  have recorded : Leads Any (fun v => v.account = w.account)
      (record env.answered run.id node.id nodeType number outcome error output)
      (fun _ v => Tally env run before (Awaits limit run.id node.id (number + 1)) es v.account)
      fun _ => False := by
    refine .post (leads_record_account (r := ⟨run.id, node.id, nodeType, number, outcome, error,
      output, w.clock⟩) reliable (Database.fitsColumn_of_le pos.le le fits)
      fun o ho hrun hnode => (hw.trail.earlier o ho hrun hnode).ne) ?_
    rintro _ v ⟨time, haccount⟩
    exact haccount ▸ ⟨hw.told, hw.trail.append pos le rfl⟩
  exact recorded w rfl

/-- What is done once the next attempt is recorded. -/
theorem tallies_recorded (reliable : env.host.Reliable) {limit number : Int} {node : Node}
    (fits : Database.fitsColumn limit = true) (pos : 0 < number) (le : number ≤ limit)
    {nodeType : String} {outcome : NodeOutcome} {error : Option String} {output : Option Value}
    {x : Walk (σ × List ServiceReply) α} (hx : Walk.Tallies env run before (Counted limit) R x) :
    Walk.Tallies env run before (Awaits limit run.id node.id number) R (do
      let _ ← Walk.engine
        (record env.answered run.id node.id nodeType number outcome error output)
      x) :=
  Walk.Leads.bind (.engine (fun _ => tallies_record reliable fits pos le _ _ _ _ _)
    fun _ _ _ => False.elim) fun _ => hx.counted

/-- What is done with the number of the next attempt at a node. -/
theorem tallies_nextAttempt {limit : Int} (nonneg : 0 ≤ limit) {node : Node}
    {x : Int → Walk (σ × List ServiceReply) α} (hx : ∀ number, 0 < number → number ≤ limit + 1 →
      Walk.Tallies env run before (Awaits (limit + 1) run.id node.id number) R (x number)) :
    Walk.Tallies env run before (Counted limit) R
      (Walk.engine (nextAttempt env.answered run.id node.id) >>= x) := by
  have kept (es : List Event) : Stays Any
      (fun w => Tally env run before (Counted limit) es w.account)
      (interrupt env.answered .nextAttempt) :=
    stays_tally (does_interrupt _ nofun) (silent_interrupt _).asksHarmless
  refine Walk.Leads.bind (B := fun number p w => (0 < number ∧ number ≤ limit + 1) ∧
      Tally env run before (Awaits (limit + 1) run.id node.id number) p.outcome.emitted w.account)
    (.engine (fun p => (leads_query (kept _) fun db => db.nextAttempt run.id node.id).post ?_)
      fun _ _ _ hw => hw.told) fun number => .assume (fun _ _ hp => hp.1) fun h =>
      .pre (hx number h.1 h.2) fun _ _ hp => hp.2
  rintro _ w ⟨hw, rfl⟩
  have counted : Counted limit w.db.records := hw.trail
  exact ⟨⟨Database.nextAttempt_pos (fun o ho => (counted o ho).1) _ _,
    Database.nextAttempt_le nonneg counted _ _⟩, hw.told,
    (Database.awaits_nextAttempt counted _ _).mono (by omega)⟩

/-! ## Ends -/

/-- A run that is failed keeps the events of its outcome. -/
theorem leads_failRun_tally (error : String) (o : Outcome) :
    Leads Any (fun w => Tally env run before R o.emitted w.account)
      (failRun env.answered run.id error o)
      (fun o' w => Tally env run before R o'.emitted w.account)
      fun w => Tally env run before R o.emitted w.account := by
  have kept : Stays Any (fun w => Tally env run before R o.emitted w.account)
      (failRun env.answered run.id error o) :=
    stays_tally (does_failRun_of error o nofun nofun trivial) (silent_failRun _ _ _).asksHarmless
  exact (kept.and (yields_failRun run.id error o)).conseq (fun _ hw => ⟨hw, trivial⟩)
    (fun _ _ hw => hw.2 ▸ hw.1) fun _ hw => hw.1

theorem tallies_failWalk (error : String) :
    Walk.Tallies env run before R R (failWalk env.answered run.id error) := by
  refine Walk.Leads.bind (B := fun q p w => q = p ∧
    Tally env run before R p.outcome.emitted w.account) (.progress fun _ _ hp => ⟨rfl, hp⟩)
    fun q => ?_
  refine .bind (B := fun o _ w => Tally env run before R o.emitted w.account)
    (.engine (E := fun p w => Tally env run before R p.outcome.emitted w.account) (fun p => ?_)
      fun _ _ _ hp => hp.told) fun o => .update fun _ _ hp => hp
  refine .assume (fun _ hw => hw.1) ?_
  rintro rfl
  exact (leads_failRun_tally error q.outcome).pre fun _ hw => hw.2

theorem tallies_goOn (next : Option String) :
    Walk.Tallies env run before R R (goOn env.answered run.id next) := by
  unfold goOn
  cases next with
  | none =>
    refine .bind (tallies_silent (does_stored .complete (.complete run.id) rfl nofun trivial
      fun _ _ => rfl) (silent_stored _ _)) fun done => ?_
    cases done
    · exact .halt
    · exact .settle _
  | some node =>
    refine .bind (tallies_silent (does_stored .moveTo (.moveTo run.id node) rfl nofun trivial
      fun _ _ => rfl) (silent_stored _ _)) fun done => ?_
    cases done
    · exact .halt
    · exact .update fun _ => rfl

/-! ## Nodes -/

section Nodes

variable {limit number : Int} {g : Graph} {node : Node} {again : Walk (σ × List ServiceReply) Unit}

/-- An attempt has the events that tell of what it has changed. -/
theorem leads_attemptAction_tally (reliable : env.host.Reliable) (node : Node) (number : Int)
    {es : List Event} :
    Leads Any (fun w => Tally env run before R es w.account)
      (attemptAction env.answered run node number)
      (fun r w => Tally env run before R (es ++ r.gathered) w.account) fun _ => False := by
  have does : DoesUnless env.answered .unrecording (¬env.answered.host.Sure .hasSuccess)
      (attemptAction env.answered run node number) :=
    doesUnless_attemptAction run node number nofun
  intro w hw
  have since : Leads Any (fun v => v.account = w.account)
      (attemptAction env.answered run node number)
      (fun r v => Tally env run before R (es ++ r.gathered) v.account) fun _ => False := by
    refine ((gathers_attemptAction node number w.account).and
      (does.steps fun _ _ _ => trivial)).conseq (fun _ hv => ⟨hv, trivial⟩) (fun r v hv => ?_)
      fun _ hv => hv.2 (reliable.answered.sure _)
    exact ⟨hw.told.trans hv.1.told, hv.1.records_eq ▸ hw.trail⟩
  exact since w rfl

/-- The events of an attempt are gathered when it is recorded. -/
theorem tallies_tryOnce (reliable : env.host.Reliable) (fits : Database.fitsColumn limit = true)
    (attempts : env.rules.strategy.maxAttempts ≤ limit) (pos : 0 < number) (le : number ≤ limit)
    (hagain : number + 1 ≤ limit → Walk.Tallies env run before
      (Awaits limit run.id node.id (number + 1)) (Counted limit) again) :
    Walk.Tallies env run before (Awaits limit run.id node.id number) (Counted limit)
      (tryOnce env.answered g run node number again) := by
  unfold tryOnce
  refine Walk.Leads.bind (.engine (fun p => leads_attemptAction_tally reliable node number)
    fun _ _ _ => False.elim)
    fun r => ?_
  refine .bind (.engine (fun p => tallies_record reliable fits pos le _ _ _ _ _)
    fun _ _ _ => False.elim) fun _ => ?_
  have hgathered : r.gathered = if r.ok then r.emitted else [] := rfl
  split
  · rename_i ok
    rw [if_pos ok] at hgathered
    rw [hgathered]
    refine Walk.Leads.bind (B := fun _ p w => Tally env run before (Counted limit) p.outcome.emitted
      w.account) (.update fun _ _ hp => ⟨hp.told, hp.trail.counted⟩) fun _ => tallies_goOn _
  · rename_i failed
    rw [if_neg failed] at hgathered
    simp only [hgathered, List.append_nil]
    split
    · exact (tallies_failWalk _).counted
    · rename_i hretry
      have more : number < env.rules.strategy.maxAttempts :=
        RetryStrategy.lt_of_shouldRetry (s := env.answered.rules.strategy) (by simpa using hretry)
      refine .bind (tallies_silent does_draw silent_draw) fun u => ?_
      refine .bind (tallies_silent (.ofExcept _) (silent_ofExcept _)) fun delay => ?_
      refine .bind (tallies_silent (does_wait delay) (silent_wait delay)) fun _ => ?_
      refine .bind (tallies_silent (does_stateOf _ nofun) (silent_look _ _)) fun state => ?_
      split
      · exact hagain (by omega)
      · exact Walk.Tallies.counted (.bind (.settle _) fun _ => .halt)

theorem tallies_tryAction (reliable : env.host.Reliable) (fits : Database.fitsColumn limit = true)
    (attempts : env.rules.strategy.maxAttempts ≤ limit) (left : Nat) (pos : 0 < number)
    (le : number ≤ limit) :
    Walk.Tallies env run before (Awaits limit run.id node.id number) (Counted limit)
      (tryAction env.answered g run node left number) := by
  induction left generalizing number with
  | zero => exact tallies_tryOnce reliable fits attempts pos le fun _ => .halt
  | succ left ih =>
    exact tallies_tryOnce reliable fits attempts pos le fun hle => ih (by omega) hle

/-- An action that is executed adds no more than one to the greatest number of the trail, if this is
not below the number of attempts that the strategy allows. -/
theorem tallies_executeAction (reliable : env.host.Reliable) (nonneg : 0 ≤ limit)
    (fits : Database.fitsColumn (limit + 1) = true)
    (attempts : env.rules.strategy.maxAttempts ≤ limit) :
    Walk.Tallies env run before (Counted limit) (Counted (limit + 1))
      (executeAction env.answered g run node) := by
  have used (isUsedUp : Bool) (number : Int) (error : String) (pos : 0 < number)
      (le : number ≤ limit + 1) : Walk.Tallies env run before
        (Awaits (limit + 1) run.id node.id number) (Counted (limit + 1))
        (if isUsedUp then failWalk env.answered run.id error
          else tryAction env.answered g run node
            (env.rules.strategy.maxAttempts - number).toNat number) := by
    split
    · exact (tallies_failWalk _).counted
    · exact tallies_tryAction reliable fits (by omega) _ pos le
  unfold executeAction
  refine tallies_nextAttempt nonneg fun number pos le => ?_
  dsimp only
  split
  · exact .bind (tallies_silent (does_look _ _ nofun) (silent_look _ _)) fun _ =>
      .bind (.pure _) fun _ => used _ number _ pos le
  · exact .bind (.pure _) fun _ => used _ number _ pos le

/-- A condition makes one record. -/
theorem tallies_executeCondition (reliable : env.host.Reliable) (nonneg : 0 ≤ limit)
    (fits : Database.fitsColumn (limit + 1) = true) (c : Comparison) :
    Walk.Tallies env run before (Counted limit) (Counted (limit + 1))
      (executeCondition env.answered g run node c) := by
  unfold executeCondition
  refine tallies_nextAttempt nonneg fun number pos le => ?_
  refine .bind (.engine fun _ => stays_tally (does_decideCondition run c).attempt
    ((asks_attempt (asks_decideCondition run c)).mono fun _ => AreReads.harmless)) fun decided => ?_
  split
  · exact tallies_recorded reliable fits pos le (tallies_failWalk _)
  · exact tallies_recorded reliable fits pos le (tallies_goOn _)

/-- So does a delay. -/
theorem tallies_executeDelay (reliable : env.host.Reliable) (nonneg : 0 ≤ limit)
    (fits : Database.fitsColumn (limit + 1) = true) (minutes : Int) :
    Walk.Tallies env run before (Counted limit) (Counted (limit + 1))
      (executeDelay env.answered run node minutes) := by
  unfold executeDelay
  refine .bind (tallies_silent does_now silent_now) fun time => ?_
  refine .bind (tallies_silent (.ofExcept _) (silent_ofExcept _)) fun resumeAt => ?_
  refine .bind (tallies_silent (does_stored .suspend (.suspend run.id node.id resumeAt) rfl nofun
    trivial fun _ _ => rfl) (silent_stored _ _)) fun done => ?_
  split
  · exact tallies_nextAttempt nonneg fun number pos le =>
      tallies_recorded reliable fits pos le (.settle _)
  · exact .halt

/-- A node that is executed adds no more than one to the greatest number of the trail. -/
theorem tallies_executeNode (reliable : env.host.Reliable) (nonneg : 0 ≤ limit)
    (fits : Database.fitsColumn (limit + 1) = true)
    (attempts : env.rules.strategy.maxAttempts ≤ limit) (resuming : Bool) :
    Walk.Tallies env run before (Counted limit) (Counted (limit + 1))
      (executeNode env.answered g run node resuming) := by
  have goes : Walk.Tallies env run before (Counted limit) (Counted (limit + 1))
      (goOn env.answered run.id (g.nextNodeId? node.id .default)) :=
    (tallies_goOn _).mono fun _ h => h.mono (by omega)
  unfold executeNode
  split
  · exact goes
  · exact tallies_executeCondition reliable nonneg fits _
  · rename_i minutes _
    have delayed (isOver : Bool) : Walk.Tallies env run before (Counted limit) (Counted (limit + 1))
        (if isOver then goOn env.answered run.id (g.nextNodeId? node.id .default)
          else executeDelay env.answered run node minutes) := by
      split
      · exact goes
      · exact tallies_executeDelay reliable nonneg fits minutes
    dsimp only
    split
    · exact .bind (.pure _) fun _ => delayed _
    · exact .bind (tallies_silent (does_look _ _ nofun) (silent_look _ _)) fun _ => delayed _
  · exact tallies_executeAction reliable nonneg fits attempts

/-! ## Executions -/

theorem tallies_whileRunning {x : Walk (σ × List ServiceReply) Unit}
    (hx : Walk.Tallies env run before R (fun _ => True) x) :
    Walk.Tallies env run before R (fun _ => True) (whileRunning env.answered run.id x) := by
  refine .bind (tallies_silent (does_stateOf _ nofun) (silent_look _ _)) fun state => ?_
  split
  · exact hx
  · exact (Walk.Tallies.settle _).forget

theorem tallies_takeStep {further : Walk (σ × List ServiceReply) Unit}
    (reliable : env.host.Reliable) (nonneg : 0 ≤ limit)
    (fits : Database.fitsColumn (limit + 1) = true)
    (attempts : env.rules.strategy.maxAttempts ≤ limit)
    (hfurther : Walk.Tallies env run before (Counted (limit + 1)) (fun _ => True) further) :
    Walk.Tallies env run before (Counted limit) (fun _ => True)
      (takeStep env.answered g run further) := by
  refine .bind (.update fun _ => rfl) fun _ => .bind .progress fun p => ?_
  split
  · exact (tallies_failWalk _).forget
  · refine .bind (tallies_executeNode reliable nonneg fits attempts _) fun _ => ?_
    refine .bind (.update fun _ => rfl) fun _ => .bind .progress fun q => ?_
    split
    · exact hfurther
    · exact (Walk.Tallies.pure _).forget

/-- A walk of so many steps, if there is room for as many attempts. -/
theorem tallies_walk (reliable : env.host.Reliable) (nonneg : 0 ≤ limit) (left : Nat)
    (fits : Database.fitsColumn (limit + left) = true)
    (attempts : env.rules.strategy.maxAttempts ≤ limit) :
    Walk.Tallies env run before (Counted limit) (fun _ => True) (walk env.answered g run left) := by
  induction left generalizing limit with
  | zero => exact tallies_whileRunning (tallies_failWalk _).forget
  | succ left ih =>
    have first : Database.fitsColumn (limit + 1) = true :=
      Database.fitsColumn_of_le (by omega) (by omega) fits
    have rest : Database.fitsColumn (limit + 1 + left) = true :=
      Database.fitsColumn_of_le (by omega) (by omega) fits
    exact tallies_whileRunning
      (tallies_takeStep reliable nonneg first attempts (ih (by omega) rest (by omega)))

end Nodes

/-- There is room for the attempts of a walk through the graph that is found for a run. -/
def Roomy (run : Run) (limit : Int) (w : World σ) : Prop :=
  ∀ g, w.graphFor? run.definition = some g → Database.fitsColumn (limit + (g.size + 1 : Nat)) = true

theorem tallies_walking {limit : Int} (reliable : env.host.Reliable) (nonneg : 0 ≤ limit)
    (attempts : env.rules.strategy.maxAttempts ≤ limit) :
    Walk.Leads Any (fun p w => Tally env run before (Counted limit) p.outcome.emitted w.account ∧
        Roomy run limit w) (walking env.answered run)
      (fun _ p w => Tally env run before (fun _ => True) p.outcome.emitted w.account)
      fun _ p w => Told env run before p.outcome.emitted w.replies := by
  have kept (es : List Event) : Stays Any
      (fun w => Tally env run before (Counted limit) es w.account)
      (graphOf env.answered run.definition) :=
    stays_tally (does_graphOf _ nofun trivial) (silent_graphOf _).asksHarmless
  have found : Leads (Step env.answered
        (fun _ g => Database.fitsColumn (limit + (g.size + 1 : Nat)) = true) .free) _
      (graphOf env.answered run.definition) _ _ := leads_graphOf (.const True) run.definition
  refine .bind (B := fun g p w => Tally env run before (Counted limit) p.outcome.emitted w.account ∧
      Database.fitsColumn (limit + (g.size + 1 : Nat)) = true)
    (.engine (fun p => ((kept _).and (found.steps fun _ _ _ => trivial)).conseq
      (fun _ hw => ⟨hw.1, trivial, hw.2⟩) (fun _ _ hw => ⟨hw.1, hw.2.2⟩) fun _ hw => hw.1)
      fun _ _ _ hw => hw.told) fun g => .assume (fun _ _ hp => hp.2) fun fits => ?_
  exact .pre (tallies_walk reliable nonneg _ fits attempts) fun _ _ hp => hp.1

/-- What a walk has gathered is what its outcome tells, however it has ended. -/
theorem leads_conclude_told (result : Except Halt Unit) (p : Progress) :
    Leads Any (fun w => Tally env run before R p.outcome.emitted w.account)
      (conclude env.answered run result p) (fun o w => Told env run before o.emitted w.replies)
      fun _ => True := by
  refine .post (B := fun o w => Tally env run before R o.emitted w.account)
    (leads_conclude_of result p (fun error => ?_) (fun _ hw => hw) fun o => ?_)
    fun _ _ hw => hw.told
  · exact (leads_failRun_tally error p.outcome).fails fun _ _ => trivial
  · exact (stays_tally (does_stateOf _ nofun) (silent_look _ _).asksHarmless).fails
      fun _ _ => trivial

/-- The events of an execution tell of the changes that it has made. -/
theorem leads_walkRun_told {limit : Int} (reliable : env.host.Reliable) (nonneg : 0 ≤ limit)
    (attempts : env.rules.strategy.maxAttempts ≤ limit) (resuming : Bool) :
    Leads Any (fun w => w.replies = before ∧ Counted limit w.db.records ∧ Roomy run limit w)
      (walkRun env.answered resuming run) (fun o w => Told env run before o.emitted w.replies)
      fun _ => True := by
  rintro w ⟨rfl, counted, roomy⟩
  have hwalking : Walk.Leads Any (fun p v => Tally env run w.replies (Counted limit)
      p.outcome.emitted v.account ∧ Roomy run limit v) (walking env.answered run) _ _ :=
    tallies_walking reliable nonneg attempts
  obtain ⟨-, hend⟩ := hwalking ⟨run.node, resuming, { run := run.id }⟩ w
    ⟨⟨.refl env run _, counted⟩, roomy⟩
  rw [run_walkRun]
  rcases hrun : (walking env.answered run).run (⟨run.node, resuming, { run := run.id }⟩, w)
    with ⟨result, p, after⟩
  rw [hrun] at hend
  have tally : Tally env run w.replies (fun _ => True) p.outcome.emitted after.account := by
    cases result with
    | ok => exact hend
    | error => exact ⟨hend, trivial⟩
  exact ⟨.single trivial, (leads_conclude_told result p after tally).2⟩

/-! ## Events that are handed on -/

/-- Every event was handled, one after the other, from the first world to the last. -/
inductive Handed (env : Environment σ) : List Event → World σ → World σ → Prop
  | nil (w : World σ) : Handed env [] w w
  | cons {e : Event} {es : List Event} {w w' w'' : World σ} {r : MatchResult}
      (first : (handleEvent env e).run w = (.ok r, w')) (rest : Handed env es w' w'') :
      Handed env (e :: es) w w''

/-- With a database that does not fail, events are handed on without a failure. -/
theorem exists_handed {ds : List Definition} (reliable : env.host.Reliable) {depth : Int}
    (fits : Database.fitsColumn depth) :
    ∀ (es : List Event), AllDeep depth es → ∀ w, Kept (fun _ _ => True) ds w →
      ∃ w', (routeFollowUps env es).run w = (.ok (), w') ∧ Handed env es w w'
  | [], _, w, _ => ⟨w, rfl, .nil w⟩
  | e :: es, deep, w, hw => by
    have can : CanBegin env e.chainDepth := ⟨reliable, (deep e List.mem_cons_self).symm ▸ fits⟩
    obtain ⟨r, w', hfirst, -, -⟩ := (leads_handleEvent_sure ds can).exists_ok hw
    have goes : Goes env (fun _ _ => True) .free ds (handleEvent env e) := goes_handleEvent e
    have hw' : Kept (fun _ _ => True) ds w' := by
      have := (stays_iff.1 goes w hw).2
      rwa [hfirst] at this
    obtain ⟨w'', hroute, handed⟩ := exists_handed reliable fits es
      (fun e' he' => deep e' (List.mem_cons_of_mem e he')) w' hw'
    refine ⟨w'', ?_, .cons hfirst handed⟩
    have hstep : routeFollowUps env (e :: es) = (do
        let _ ← handleEvent env e
        routeFollowUps env es) := rfl
    rw [hstep, run_bind, hfirst]
    exact hroute

/-- A run that is stored and running is executed, and then its events are handed on. -/
theorem exists_announced (reliable : env.host.Reliable) {w : World (σ × List ServiceReply)}
    (distinct : Distinct w) {limit : Nat} (counted : Counted limit w.db.records)
    (attempts : env.rules.strategy.maxAttempts ≤ limit) (roomy : Roomy run limit w)
    (deep : Database.fitsColumn (run.chainDepth + 1) = true) (stored : run ∈ w.db.runs)
    (resuming : Bool) :
    ∃ o w₁ w₂, (walkRun env.answered resuming run).run w = (.ok o, w₁) ∧
      (routeFollowUps env.answered o.emitted).run w₁ = (.ok (), w₂) ∧
      Handed env.answered o.emitted w₁ w₂ ∧ Told env run w.replies o.emitted w₁.replies := by
  have walks : Leads (Step env.answered (fun _ _ => True) .free) _
      (walkRun env.answered resuming run) _ _ := leads_walkRun run resuming fun _ => trivial
  have told : Leads Any (fun v => v.replies = w.replies ∧ Counted limit v.db.records ∧
      Roomy run limit v) (walkRun env.answered resuming run) _ _ :=
    leads_walkRun_told reliable (Int.natCast_nonneg limit) attempts resuming
  have yields := yields_walkRun env.answered run resuming
  obtain ⟨o, w₁, hwalk, hpath, ⟨-, htold⟩, hdeep⟩ :=
    ((walks.and told).and yields).fails (fun _ hw => hw.1.1.1 reliable.answered) |>.exists_ok
      ⟨⟨⟨distinct, ⟨run, stored, rfl, rfl, rfl⟩, fun _ _ => trivial⟩, rfl, counted, roomy⟩, trivial⟩
  have kept : Kept (fun _ _ => True) w.db.definitions w :=
    ⟨⟨distinct, fun o ho => (counted o ho).1, fun _ _ _ _ => trivial, fun _ _ => trivial⟩, rfl⟩
  obtain ⟨w₂, hroute, handed⟩ := exists_handed reliable.answered deep o.emitted hdeep w₁
    (hpath.keep (fun _ _ => kept_of_step) kept)
  exact ⟨o, w₁, w₂, hwalk, hroute, handed, htold⟩

/-- With a database that does not fail, an execution of a stored run hands on one event for each
call that has moved its contact, or given it a tag or taken one from it, and has returned, in the
order of the calls, and no other event; and if follow-ups are switched off, none at all. Each is of
the type of its change and tells what was changed, is about the contact of the run, and is one
deeper than the run. It does not matter how the execution ends: the run may be completed, fail,
sleep or be cancelled by others at any time, and the calls may be made in several attempts. -/
theorem execution_announces_changes (reliable : env.host.Reliable)
    (w : World (σ × List ServiceReply))
    (distinct : (w.db.runs.map (·.id)).Nodup) (limit : Nat)
    (counted : ∀ o ∈ w.db.records, 0 < o.attempt ∧ o.attempt ≤ limit)
    (attempts : env.rules.strategy.maxAttempts ≤ limit)
    (room : Database.fitsColumn (limit + w.stepLimit run.definition) = true)
    (deep : Database.fitsColumn (run.chainDepth + 1) = true) (stored : run ∈ w.db.runs)
    (resuming : Bool) :
    ∃ o w₁ w₂ made, (runAlone env.answered resuming run.id).run w = (.ok o, w₁) ∧
      (if resuming then resume env.answered run.id else advance env.answered run.id).run w
        = (.ok o, w₂) ∧
      Handed env.answered o.emitted w₁ w₂ ∧ w₁.replies = w.replies ++ made ∧
      List.Forall₂ (Announces run)
        (if env.rules.emitFollowUps then made.filter (·.isChange) else []) o.emitted := by
  have hexecute : (if resuming then resume env.answered run.id else advance env.answered run.id)
      = runFrom env.answered (routeFollowUps env.answered) resuming run.id := by
    cases resuming <;> rfl
  have conceded := w.concedes_read env.answered resuming
  have distinct' : Distinct (w.read env.answered resuming) := calm_distinct w _ conceded distinct
  obtain ⟨r, hr, hc⟩ := conceded.exists_after stored
  have hrun (route : List Event → Engine (σ × List ServiceReply) Unit) :=
    run_runFrom reliable.answered route resuming (distinct'.run?_eq_some hr)
  simp only [hc.id_eq] at hrun
  rw [hexecute, runAlone, hrun, hrun]
  by_cases running : r.state = .running
  · obtain rfl := hc.eq_of_running running
    have roomy : Roomy r limit (w.read env.answered resuming) := by
      intro g hg
      rw [w.graphFor?_read env.answered resuming] at hg
      rw [World.stepLimit, hg] at room
      exact room
    obtain ⟨o, w₁, w₂, hwalk, hroute, handed, made, hreplies, htold⟩ := exists_announced reliable
      distinct' (conceded.records_eq ▸ counted) attempts roomy deep hr resuming
    rw [if_neg (not_not_intro running), if_neg (not_not_intro running), run_bind, run_bind, hwalk]
    refine ⟨o, w₁, w₂, made, ?_, ?_, handed, hreplies, htold⟩
    · dsimp only
      split <;> rfl
    · dsimp only
      split
      · rw [run_bind, run_attempt, hroute]
        rfl
      · rename_i hempty
        have nothing : o.emitted = [] := by simpa using hempty
        rw [nothing] at hroute
        cases hroute
        rfl
  · rw [if_pos running, if_pos running]
    exact ⟨_, _, _, [], rfl, rfl, .nil _, (List.append_nil _).symm, by simp⟩

/-- A run of `echo` that is about to add its tag. -/
def echoing : World (Nat × List ServiceReply) where
  db := { unheard.db with runs := [.created ⟨1⟩ "run-1" echo "c-1" "tag" .null 0] }
  clock := ⟨2⟩
  graphs := []
  turns := []
  calls := []
  waits := []
  host := (0, [])

/-- The tag is told of once, after the contact was read and the tag was added. -/
theorem execution_announces_changes_of_echoing :
    let run : Run := .created ⟨1⟩ "run-1" echo "c-1" "tag" .null 0
    obliging.host.Reliable ∧ (echoing.db.runs.map (·.id)).Nodup ∧
    (∀ o ∈ echoing.db.records, 0 < o.attempt ∧ o.attempt ≤ (9 : Nat)) ∧
    obliging.rules.strategy.maxAttempts ≤ (9 : Nat) ∧
    Database.fitsColumn ((9 : Nat) + echoing.stepLimit run.definition) = true ∧
    Database.fitsColumn (run.chainDepth + 1) = true ∧ run ∈ echoing.db.runs ∧
    (∃ o w₁ w₂ made, (runAlone obliging.answered false run.id).run echoing = (.ok o, w₁) ∧
      (advance obliging.answered run.id).run echoing = (.ok o, w₂) ∧
      Handed obliging.answered o.emitted w₁ w₂ ∧ w₁.replies = echoing.replies ++ made ∧
      List.Forall₂ (Announces run) (made.filter (·.isChange)) o.emitted) ∧
    ((runAlone obliging.answered false run.id).run echoing).2.replies.map (·.isChange)
      = [false, true] ∧
    ((runAlone obliging.answered false run.id).run echoing).1.toOption.map
      (fun o => o.emitted.map fun e => (e.type, e.contact, e.chainDepth))
      = some [(.tagAdded, "c-1", 1)] := by
  intro run
  have reliable : obliging.host.Reliable := fun _ _ _ => rfl
  have distinct : (echoing.db.runs.map (·.id)).Nodup := by decide
  have counted : ∀ o ∈ echoing.db.records, 0 < o.attempt ∧ o.attempt ≤ (9 : Nat) :=
    fun _ h => absurd h List.not_mem_nil
  have attempts : obliging.rules.strategy.maxAttempts ≤ (9 : Nat) := by decide
  have room : Database.fitsColumn ((9 : Nat) + echoing.stepLimit run.definition) = true := by
    decide +kernel
  have deep : Database.fitsColumn (run.chainDepth + 1) = true := by decide +kernel
  have stored : run ∈ echoing.db.runs := List.mem_singleton_self _
  exact ⟨reliable, distinct, counted, attempts, room, deep, stored,
    execution_announces_changes reliable echoing distinct 9 counted attempts room deep stored false,
    by decide +kernel, by decide +kernel⟩

end Engine

end CrmAutomation
