import CrmAutomation.Proofs.Engine.Replies
import CrmAutomation.Proofs.Engine.Retrying
import CrmAutomation.Proofs.Engine.Suspension

/-!
# Nodes that have sent before

A worker may die after the success of a sending node was recorded and before the run was moved on.
When the run is executed again it is on a node that has sent, and nothing is sent a second time. But
an attempt reads the contact before it looks for the success, so what comes of it depends on this
read alone (`ActionResult.ofRead`): if a contact is brought the attempt is recorded as skipped and
the run goes on, if the read fails for a while it is repeated as long as attempts are left, and if
it fails for good, or there is no such contact any more, the run fails although its effect was
delivered (`Engine.revisit_passes_if_read`). Each attempt makes one call, which reads, and one
record (`AreReports`).
-/

namespace CrmAutomation

variable {σ α β : Type}

/-- A read has brought something. -/
def Answer.brings : Answer (Option α) → Bool
  | .value (some _) => true
  | _ => false

/-- What an attempt at a node that has sent before makes of the answer to its read. -/
def ActionResult.ofRead (contact : String) : Answer (Option Contact) → ActionResult
  | .value (some _) => .alreadyDone
  | .value none => .failed ("Contact " ++ contact ++ " not found") false
  | .failure f => .failed ("Could not load contact: " ++ f.text) f.isTransient
  | .silence =>
    .failed ("Could not load contact: " ++ (Failure.system .timeout "").text) true

theorem ActionResult.ofRead_ok (contact : String) (a : Answer (Option Contact)) :
    (ofRead contact a).ok = a.brings := by
  rcases a with (_ | _) | _ | _ <;> rfl

theorem ActionResult.ofRead_emitted (contact : String) (a : Answer (Option Contact)) :
    (ofRead contact a).emitted = [] := by
  rcases a with (_ | _) | _ | _ <;> rfl

theorem ActionResult.ofRead_outcome (contact : String) (a : Answer (Option Contact)) :
    (ofRead contact a).outcome = if a.brings then .skipped else .failed := by
  rcases a with (_ | _) | _ | _ <;> rfl

/-- The answer to a read of the contact of a run. -/
def Run.readReply (r : Run) (a : Answer (Option Contact)) : ServiceReply :=
  ⟨.getContact r.organization r.contact, a⟩

/-- What is recorded of an attempt at a node that has sent before. -/
def NodeRecord.ofRead (r : Run) (node : Node) (number : Int) (a : Answer (Option Contact))
    (time : Instant) : NodeRecord where
  run := r.id
  node := node.id
  nodeType := node.type.text
  attempt := number
  outcome := if a.brings then .skipped else .failed
  error := (ActionResult.ofRead r.contact a).error
  output := if (ActionResult.ofRead r.contact a).output.isEmpty then none
    else some (.obj (ActionResult.ofRead r.contact a).output)
  executedAt := time

/-- One record for each of these reads, numbered on from the first. -/
inductive AreReports (r : Run) (node : Node) :
    Int → List (Answer (Option Contact)) → List NodeRecord → Prop
  | nil (number : Int) : AreReports r node number [] []
  | cons {number : Int} {reads : List (Answer (Option Contact))} {made : List NodeRecord}
      (a : Answer (Option Contact)) (time : Instant)
      (rest : AreReports r node (number + 1) reads made) :
      AreReports r node number (a :: reads) (.ofRead r node number a time :: made)

/-- The account after attempts at a node that has sent before, with these reads. -/
structure Rereads (r : Run) (node : Node) (b : Account) (number : Int)
    (reads : List (Answer (Option Contact))) (b' : Account) : Prop where
  replies : b'.replies = b.replies ++ reads.map r.readReply
  records : ∃ made, b'.records = b.records ++ made ∧ AreReports r node number reads made

/-- The account after one more attempt. -/
def Account.reread (b : Account) (r : Run) (node : Node) (number : Int)
    (a : Answer (Option Contact)) (time : Instant) : Account :=
  ⟨b.replies ++ [r.readReply a], b.records ++ [.ofRead r node number a time]⟩

namespace Rereads

variable {r : Run} {node : Node} {b b' : Account} {number : Int}
  {reads : List (Answer (Option Contact))}

theorem single (a : Answer (Option Contact)) (time : Instant) :
    Rereads r node b number [a] (b.reread r node number a time) :=
  ⟨rfl, _, rfl, .cons a time (.nil _)⟩

theorem cons {a : Answer (Option Contact)} {time : Instant}
    (h : Rereads r node (b.reread r node number a time) (number + 1) reads b') :
    Rereads r node b number (a :: reads) b' := by
  obtain ⟨made, hrecords, reports⟩ := h.records
  exact ⟨h.replies.trans (List.append_assoc ..), _, hrecords.trans (List.append_assoc ..),
    .cons a time reports⟩

end Rereads

/-- The trail tells that the node of the run has succeeded. -/
def Account.HasSuccess (b : Account) (run node : String) : Prop :=
  ∃ o ∈ b.records, o.run = run ∧ o.node = node ∧ o.outcome = .success

theorem Account.HasSuccess.reread {b : Account} {run node : String} (h : b.HasSuccess run node)
    (r : Run) (n : Node) (number : Int) (a : Answer (Option Contact)) (time : Instant) :
    (b.reread r n number a time).HasSuccess run node := by
  obtain ⟨o, ho, heq⟩ := h
  exact ⟨o, List.mem_append_left _ ho, heq⟩

theorem Account.hasSuccess_iff {w : World (σ × List ServiceReply)} {run node : String} :
    w.account.HasSuccess run node ↔ w.db.hasSuccess run node = true := by
  simp only [Account.HasSuccess, World.account, Database.hasSuccess, Database.recordsOf,
    List.any_eq_true, List.mem_filter, Bool.and_eq_true, beq_iff_eq]
  constructor
  · rintro ⟨o, ho, hrun, hnode, houtcome⟩
    exact ⟨o, ⟨ho, hrun, hnode⟩, houtcome⟩
  · rintro ⟨o, ⟨ho, hrun, hnode⟩, houtcome⟩
    exact ⟨o, ho, hrun, hnode, houtcome⟩

/-! ## A row and an account -/

/-- The row stands in the table, and the account is this one. -/
structure Visiting (r : Run) (t : Instant) (b : Account) (w : World (σ × List ServiceReply)) :
    Prop where
  showing : Showing r t w
  account : w.account = b

namespace Engine

variable {env : Environment σ} {r : Run} {t : Instant} {b : Account}

theorem Visiting.unmoved (spares : env.host.Spares r.id) :
    Unmoved env.answered (Visiting r t b) := fun call w hw =>
  ⟨Showing.unmoved spares.answered call w hw.showing,
    (congrArg (Account.mk _) (w.concedes_interrupted env.answered call).records_eq).trans
      hw.account⟩

/-- What is told of the row and of the account is told of both. -/
theorem visits {B : α → World (σ × List ServiceReply) → Prop} {C : α → Account → Prop}
    {x : Engine (σ × List ServiceReply) α} (hrow : Leads Any (Showing r t) x B fun _ => False)
    {X : World (σ × List ServiceReply) → Prop}
    (haccount : Leads Any (fun w => w.account = b) x (fun a w => C a w.account) X) :
    Leads Any (Visiting r t b) x (fun a w => B a w ∧ C a w.account) fun _ => False :=
  (hrow.and haccount).conseq (fun _ hw => ⟨hw.showing, hw.account⟩) (fun _ _ hw => hw)
    fun _ hw => hw.1

/-- A read from the database. -/
theorem visits_look (reliable : env.host.Reliable) (spares : env.host.Spares r.id)
    (call : StorageCall) (query : Database → α) :
    Leads Any (Visiting r t b) (look env.answered call query)
      (fun a w => Visiting r t b w ∧ a = query w.db) fun _ => False :=
  leads_look_unmoved reliable.answered (Visiting.unmoved spares) call query

/-- The run is found running as long as its row says so. -/
theorem visits_stateOf (reliable : env.host.Reliable) (spares : env.host.Spares r.id) :
    Leads Any (Visiting r t b) (stateOf env.answered r.id)
      (fun state w => state = some r.state ∧ Visiting r t b w) fun _ => False := by
  refine (visits_look reliable spares .getState _).post fun state w hw => ?_
  obtain ⟨hw, rfl⟩ := hw
  exact ⟨by rw [hw.showing.distinct.run?_eq_some hw.showing.row]; rfl, hw⟩

theorem visits_draw : Leads Any (Visiting r t b)
    (monadLift (draw env.answered) : Engine (σ × List ServiceReply) Double)
    (fun _ => Visiting r t b) fun _ => False :=
  fun w hw => ⟨.single trivial, Showing.congr (w := w) rfl (Nat.le_refl _) hw.showing, hw.account⟩

theorem visits_wait (spares : env.host.Spares r.id) (delay : Double) :
    Leads Any (Visiting r t b) (wait env.answered delay) (fun _ => Visiting r t b)
      fun _ => False := by
  intro w hw
  have conceded := w.concedes_waited env.answered delay
  refine ⟨.single trivial, ⟨?_, Database.mem_cancelAll hw.showing.row
    (spares.wait delay w.db w.host.1), hw.showing.come.trans ?_⟩, ?_⟩
  · show Distinct (w.waited env.answered delay)
    rw [Distinct, conceded.ids_eq]
    exact hw.showing.distinct
  · change w.clock.micros ≤ (w.clock.later 1).micros
    rw [Instant.micros_later_one]
    exact Nat.le_succ _
  · exact (congrArg (Account.mk _) conceded.records_eq).trans hw.account

/-- A read of the contact is answered somehow. -/
theorem visits_read (spares : env.host.Spares r.id) :
    Leads Any (Visiting r t b)
      (ask env.answered (.getContact r.organization r.contact))
      (fun a w => Visiting r t { b with replies := b.replies ++ [r.readReply a] } w)
      fun _ => False := by
  have hrow : Leads Any (Showing r t) (ask env.answered (.getContact r.organization r.contact))
      (fun _ => Showing r t) fun _ => False := by
    intro w hw
    have conceded := w.concedes_served env.answered (.getContact r.organization r.contact)
    refine ⟨.single trivial, ?_, Database.mem_cancelAll hw.row
      (spares.service (.getContact r.organization r.contact) w.db w.host.1), hw.come.trans ?_⟩
    · show Distinct (w.served env.answered (.getContact r.organization r.contact))
      rw [Distinct, conceded.ids_eq]
      exact hw.distinct
    · change w.clock.micros ≤ (w.clock.later 1).micros
      rw [Instant.micros_later_one]
      exact Nat.le_succ _
  exact (visits hrow (C := fun a b' => b' = { b with replies := b.replies ++ [r.readReply a] })
    (leads_ask_account _)).post fun _ _ hw => ⟨hw.1, hw.2⟩

/-- A write to the run that is running. -/
theorem visits_write (reliable : env.host.Reliable) (spares : env.host.Spares r.id)
    (hrunning : r.state = .running) {call : StorageCall} (unrecorded : call ≠ .record)
    (c : RunCommand) (old : c.isCreate = false) (change : Instant → Run → Run)
    (hids : ∀ time o, (change time o).id = o.id)
    (hc : ∀ time db, (Database.updateRun r.id Database.isRunning (change time) db).2
      = c.perform time db) :
    Leads Any (Visiting r t b)
      (stored env.answered call fun time =>
        Database.updateRun r.id Database.isRunning (change time))
      (fun done w => done = true ∧ ∃ time, Visiting (change time r) t b w) fun _ => False := by
  have guard : Database.isRunning r = true := by simp [Database.isRunning, hrunning]
  have does : Does env.answered .unrecording (stored env.answered call fun time =>
      Database.updateRun r.id Database.isRunning (change time)) :=
    does_stored call c old unrecorded trivial hc
  refine (visits (leads_updateRun reliable.answered spares.answered call change hids)
    (C := fun _ b' => b' = b) (does.keeps_account (silent_stored _ _))).post fun done w hw => ?_
  obtain ⟨⟨hdone, time, hrow⟩, haccount⟩ := hw
  rw [guard, if_pos rfl] at hrow
  exact ⟨hdone.trans guard, time, hrow, haccount⟩

/-! ## Attempts -/

variable {node : Node} {number : Int}

/-- A read of the contact that is to bring something: what is not a value is an error. -/
theorem visits_demand (spares : env.host.Spares r.id) :
    Leads Any (Visiting r t b)
      (attempt (demand env.answered (.getContact r.organization r.contact)))
      (fun found w => ∃ a : Answer (Option Contact),
        Visiting r t { b with replies := b.replies ++ [r.readReply a] } w ∧
        match a with
        | .value v => found = .ok v
        | .failure f => found = .error f
        | .silence => found = .error (.system .timeout "")) fun _ => False := by
  intro w hw
  have hread : Leads Any (Visiting r t b)
      (ask env.answered (.getContact r.organization r.contact)) _ _ := visits_read spares
  obtain ⟨a, w', hask, hpath, hw'⟩ := hread.exists_ok hw
  rw [run_attempt, demand, run_bind, hask]
  cases a with
  | value v => exact ⟨.single trivial, .value v, hw', rfl⟩
  | failure f => exact ⟨.single trivial, .failure f, hw', rfl⟩
  | silence => exact ⟨.single trivial, .silence, hw', rfl⟩

/-- Where the contact is there, the success is found, and nothing is sent. -/
theorem visits_dispatch (reliable : env.host.Reliable) (spares : env.host.Spares r.id)
    (sending : node.type.isSending = true) (sent : b.HasSuccess r.id node.id) (contact : Contact) :
    Leads Any (Visiting r t b)
      (dispatch env.answered { run := r, node := node, contact := contact, attempt := number })
      (fun result w => result = .ofRead r.contact (.value (some contact)) ∧ Visiting r t b w)
      fun _ => False := by
  obtain ⟨kind, hkind⟩ : ∃ kind, ActionRegistry.builtin.get? node.type.text = some kind := by
    cases htype : node.type <;> rw [htype] at sending <;> first | exact ⟨_, rfl⟩ | cases sending
  have once : kind.isIdempotent = false := by
    rw [isIdempotent_of_get? hkind, sending, Bool.not_true]
  unfold dispatch
  simp only [hkind, once, Bool.not_false, if_true]
  refine .bind (visits_look reliable spares _ _) fun found => ?_
  refine .assume (p := found = true) (fun w hw => ?_) ?_
  · rw [hw.2, ← Account.hasSuccess_iff, hw.1.account]
    exact sent
  · rintro rfl
    exact .pure _ fun w hw => ⟨rfl, hw.1⟩

/-- An attempt at a node that has sent before makes one read, and comes to what this read says. -/
theorem visits_attempt (reliable : env.host.Reliable) (spares : env.host.Spares r.id)
    (sending : node.type.isSending = true) (sent : b.HasSuccess r.id node.id) :
    Leads Any (Visiting r t b) (attemptAction env.answered r node number)
      (fun result w => ∃ a, result = .ofRead r.contact a ∧
        Visiting r t { b with replies := b.replies ++ [r.readReply a] } w) fun _ => False := by
  refine .bind (visits_demand spares) fun found => ?_
  rintro w ⟨a, hw, hfound⟩
  cases a with
  | failure f =>
    obtain rfl := hfound
    exact ⟨.refl, .failure f, rfl, hw⟩
  | silence =>
    obtain rfl := hfound
    exact ⟨.refl, .silence, rfl, hw⟩
  | value v =>
    obtain rfl := hfound
    cases v with
    | none => exact ⟨.refl, .value none, rfl, hw⟩
    | some contact =>
      have sent' : Account.HasSuccess
          { b with replies := b.replies ++ [r.readReply (.value (some contact))] } r.id node.id :=
        sent
      have dispatched : Leads Any (Visiting r t _) (dispatch env.answered
          { run := r, node := node, contact := contact, attempt := number }) _ _ :=
        visits_dispatch reliable spares sending sent' contact
      obtain ⟨result, w', hrun, hpath, rfl, hw'⟩ := dispatched.exists_ok hw
      dsimp only
      rw [hrun]
      exact ⟨hpath, .value (some contact), rfl, hw'⟩

/-- The attempt is recorded. -/
theorem visits_record (reliable : env.host.Reliable) (spares : env.host.Spares r.id)
    (fits : Database.fitsColumn number = true)
    (fresh : ∀ o ∈ b.records, o.run = r.id → o.node = node.id → o.attempt < number)
    (a : Answer (Option Contact)) :
    Leads Any (Visiting r t { b with replies := b.replies ++ [r.readReply a] })
      (record env.answered r.id node.id node.type.text number
        (ActionResult.ofRead r.contact a).outcome (ActionResult.ofRead r.contact a).error
        (if (ActionResult.ofRead r.contact a).output.isEmpty then none
          else some (.obj (ActionResult.ofRead r.contact a).output)))
      (fun _ w => ∃ time, Visiting r t (b.reread r node number a time) w) fun _ => False := by
  have hrow := leads_record_showing reliable.answered (Showing.unmoved (t := t) spares.answered)
    (fun w w' hruns hclock (hw : Showing r t w) => hw.congr hruns hclock) r.id node.id
    node.type.text number
    (ActionResult.ofRead r.contact a).outcome (ActionResult.ofRead r.contact a).error
    (if (ActionResult.ofRead r.contact a).output.isEmpty then none
      else some (.obj (ActionResult.ofRead r.contact a).output))
  rw [ActionResult.ofRead_outcome] at hrow ⊢
  have haccount := leads_record_account (b := { b with replies := b.replies ++ [r.readReply a] })
    reliable (r := .ofRead r node number a default) fits
    fun o ho hrun hnode => (fresh o ho hrun hnode).ne
  refine (hrow.and haccount).conseq (fun _ hw => ⟨hw.showing, hw.account⟩) ?_ fun _ hw => hw.2
  rintro _ w ⟨hw, time, heq⟩
  exact ⟨time, hw, heq⟩

/-! ## The loop -/

variable {g : Graph} {ps : Progress}

/-- A computation of the engine, in a walk that has come so far. -/
theorem walk_from {A X : World σ → Prop} {B : α → World σ → Prop} {x : Engine σ α} (ps : Progress)
    (hx : Leads Any A x B X) :
    Walk.Leads Any (fun p w => p = ps ∧ A w) (Walk.engine x) (fun a p w => p = ps ∧ B a w)
      fun h p w => (∃ f, h = .failed f) ∧ p = ps ∧ X w :=
  .engine (E := fun p w => p = ps ∧ X w) (fun p => .assume (p := p = ps) (fun _ hw => hw.1)
    fun hp => hx.conseq (fun _ hw => hw.2) (fun _ _ hw => ⟨hp, hw⟩) fun _ hw => ⟨hp, hw⟩)
    fun f _ _ hw => ⟨⟨f, rfl⟩, hw⟩

/-- A computation of the engine that does not fail. -/
theorem walk_sure {A : World σ → Prop} {B : α → World σ → Prop} {x : Engine σ α}
    {X : Halt → Progress → World σ → Prop} (ps : Progress) (hx : Leads Any A x B fun _ => False) :
    Walk.Leads Any (fun p w => p = ps ∧ A w) (Walk.engine x) (fun a p w => p = ps ∧ B a w) X :=
  (walk_from ps hx).conseq (fun _ _ hw => hw) (fun _ _ _ hw => hw) fun _ _ _ hw => hw.2.2.elim

/-- A walk has left the node: the run is on the next one, or completed where there is none. -/
def Passed (g : Graph) (node : Node) (r : Run) (t : Instant) (b : Account) (ps p : Progress)
    (w : World (σ × List ServiceReply)) : Prop :=
  match g.nextNodeId? node.id .default with
  | some next => p = { ps with node := next } ∧
      ∃ time, Visiting { r with node := next, updatedAt := time } t b w
  | none => p = { ps with outcome := { ps.outcome with state := some .completed } } ∧
      ∃ time, Visiting (Database.ended time .completed r.error r) t b w

/-- A walk has failed its run. -/
def Stranded (r : Run) (t : Instant) (b : Account) (ps p : Progress)
    (w : World (σ × List ServiceReply)) : Prop :=
  ∃ error time,
    p = { ps with outcome := { ps.outcome with error := some error, state := some .failed } } ∧
    Visiting (Database.ended time .failed (some (Database.storedError error)) r) t b w

theorem visits_goOn (reliable : env.host.Reliable) (spares : env.host.Spares r.id)
    (hrunning : r.state = .running) {X : Halt → Progress → World (σ × List ServiceReply) → Prop} :
    Walk.Leads Any (fun p w => p = ps ∧ Visiting r t b w)
      (goOn env.answered r.id (g.nextNodeId? node.id .default))
      (fun _ p w => Passed g node r t b ps p w) X := by
  unfold goOn Passed
  cases g.nextNodeId? node.id .default with
  | none =>
    refine .bind (walk_sure ps (visits_write reliable spares hrunning (by decide)
      (.complete r.id) rfl (fun time o => Database.ended time .completed o.error o) (fun _ _ => rfl)
      fun _ _ => rfl)) fun done => .assume (q := done = true) (fun _ _ hw => hw.2.1) ?_
    rintro rfl
    refine .settle fun p w hw => ?_
    obtain ⟨rfl, -, time, hw⟩ := hw
    exact ⟨rfl, time, hw⟩
  | some next =>
    refine .bind (walk_sure ps (visits_write reliable spares hrunning (by decide)
      (.moveTo r.id next) rfl (fun time o => { o with node := next, updatedAt := time })
      (fun _ _ => rfl) fun _ _ => rfl)) fun done => ?_
    refine .assume (q := done = true) (fun _ _ hw => hw.2.1) ?_
    rintro rfl
    rw [if_pos rfl]
    refine .update fun p w hw => ?_
    obtain ⟨rfl, -, time, hw⟩ := hw
    exact ⟨rfl, time, hw⟩

theorem visits_failRun (reliable : env.host.Reliable) (spares : env.host.Spares r.id)
    (hrunning : r.state = .running) (error : String) (o : Outcome) :
    Leads Any (Visiting r t b) (failRun env.answered r.id error o)
      (fun o' w => o' = { o with error := some error, state := some .failed } ∧
        ∃ time, Visiting (Database.ended time .failed (some (Database.storedError error)) r) t b w)
      fun _ => False := by
  refine .bind (visits_write reliable spares hrunning (by decide) (.fail r.id error) rfl
    (fun time => Database.ended time .failed (some (Database.storedError error))) (fun _ _ => rfl)
    fun _ _ => rfl) fun done => .assume (p := done = true) (fun _ hw => hw.1) ?_
  rintro rfl
  exact .pure _ fun w hw => ⟨rfl, hw.2⟩

theorem visits_failWalk (reliable : env.host.Reliable) (spares : env.host.Spares r.id)
    (hrunning : r.state = .running) (error : String)
    {X : Halt → Progress → World (σ × List ServiceReply) → Prop} :
    Walk.Leads Any (fun p w => p = ps ∧ Visiting r t b w) (failWalk env.answered r.id error)
      (fun _ p w => Stranded r t b ps p w) X := by
  refine .bind (B := fun q p w => q = ps ∧ p = ps ∧ Visiting r t b w)
    (.progress fun p w hw => ⟨hw.1, hw⟩) fun q => .assume (q := q = ps) (fun _ _ hw => hw.1) ?_
  rintro rfl
  refine .bind ((walk_sure q (visits_failRun reliable spares hrunning error q.outcome)).pre
    fun _ _ hw => hw.2) fun o => .update fun p w hw => ?_
  obtain ⟨rfl, rfl, time, hw⟩ := hw
  exact ⟨error, time, rfl, hw⟩

/-- Attempts at a node that has sent before, with these reads, of which all but the last have failed
for a while. -/
structure Revisit (s : RetryStrategy) (r : Run) (node : Node) (b : Account) (number : Int)
    (reads : List (Answer (Option Contact))) (last : Answer (Option Contact)) (b' : Account) : Prop
    extends Rereads r node b number (reads ++ [last]) b' where
  transient : ∀ a ∈ reads, (ActionResult.ofRead r.contact a).retryable = true
  /-- No contact was brought, and the strategy allows no further attempt or cannot reckon the wait.
  -/
  spent : last.brings = false →
    s.shouldRetry (number + reads.length) none (some (ActionResult.ofRead r.contact last).retryable)
      = false ∨ ∃ u f, s.delay u (number + reads.length) = .error f

/-- One attempt, after which there is none. -/
theorem Revisit.single {s : RetryStrategy} {a : Answer (Option Contact)} (time : Instant)
    (spent : a.brings = false →
      s.shouldRetry number none (some (ActionResult.ofRead r.contact a).retryable) = false ∨
        ∃ u f, s.delay u number = .error f) :
    Revisit s r node b number [] a (b.reread r node number a time) where
  toRereads := .single a time
  transient := List.forall_mem_nil _
  spent := by
    rw [List.length_nil, Int.natCast_zero, Int.add_zero]
    exact spent

theorem Revisit.cons {s : RetryStrategy} {a last : Answer (Option Contact)} {time : Instant}
    {reads : List (Answer (Option Contact))} {b' : Account}
    (again : (ActionResult.ofRead r.contact a).retryable = true)
    (h : Revisit s r node (b.reread r node number a time) (number + 1) reads last b') :
    Revisit s r node b number (a :: reads) last b' := by
  have hlength : number + (a :: reads).length = number + 1 + reads.length := by
    rw [List.length_cons]
    omega
  exact ⟨h.toRereads.cons, List.forall_mem_cons.2 ⟨again, h.transient⟩, hlength ▸ h.spent⟩

/-- Where attempts at a node that has sent before have come to: on from the node if the last read
has brought the contact, and else the run has failed. -/
def Revisited (s : RetryStrategy) (g : Graph) (node : Node) (r : Run) (t : Instant) (b : Account)
    (number : Int) (ps p : Progress) (w : World (σ × List ServiceReply)) : Prop :=
  ∃ reads last b', Revisit s r node b number reads last b' ∧
    if last.brings then Passed g node r t b' ps p w else Stranded r t b' ps p w

/-- The attempts were broken off after reads that have not brought the contact. -/
def BrokenOff (s : RetryStrategy) (node : Node) (r : Run) (t : Instant) (b : Account) (number : Int)
    (ps : Progress) (h : Halt) (p : Progress) (w : World (σ × List ServiceReply)) : Prop :=
  (∃ f, h = .failed f) ∧ p = ps ∧ ∃ reads last b', Revisit s r node b number reads last b' ∧
    last.brings = false ∧ Visiting r t b' w

theorem Revisited.cons {s : RetryStrategy} {a : Answer (Option Contact)} {time : Instant}
    {p : Progress}
    {w : World (σ × List ServiceReply)} (again : (ActionResult.ofRead r.contact a).retryable = true)
    (h : Revisited s g node r t (b.reread r node number a time) (number + 1) ps p w) :
    Revisited s g node r t b number ps p w := by
  obtain ⟨reads, last, b', hrevisit, hend⟩ := h
  exact ⟨a :: reads, last, b', hrevisit.cons again, hend⟩

theorem BrokenOff.cons {s : RetryStrategy} {a : Answer (Option Contact)} {time : Instant} {h : Halt}
    {p : Progress} {w : World (σ × List ServiceReply)}
    (again : (ActionResult.ofRead r.contact a).retryable = true)
    (hw : BrokenOff s node r t (b.reread r node number a time) (number + 1) ps h p w) :
    BrokenOff s node r t b number ps h p w := by
  obtain ⟨hfailed, hp, reads, last, b', hrevisit, hend⟩ := hw
  exact ⟨hfailed, hp, a :: reads, last, b', hrevisit.cons again, hend⟩

/-- After an attempt that failed for a while, the next one is made once the wait is over. -/
theorem visits_again (reliable : env.host.Reliable) (spares : env.host.Spares r.id)
    (hrunning : r.state = .running) {again : Walk (σ × List ServiceReply) Unit} (delay : Double)
    {B X}
    (repeated : Walk.Leads Any (fun p w => p = ps ∧ Visiting r t b w) again B X) :
    Walk.Leads Any (fun p w => p = ps ∧ Visiting r t b w) (do
        Walk.engine (wait env.answered delay)
        let state ← Walk.engine (stateOf env.answered r.id)
        if state = some .running then again
        else
          Walk.settle state
          Walk.halt) B X := by
  refine .bind (walk_sure ps (visits_wait spares delay)) fun _ => ?_
  refine .bind (walk_sure ps (visits_stateOf reliable spares)) fun state => ?_
  refine .assume (q := state = some .running) (fun _ _ hw => hrunning ▸ hw.2.1) ?_
  rintro rfl
  rw [if_pos rfl]
  exact repeated.pre fun _ _ hw => ⟨hw.1, hw.2.2⟩

/-- An attempt that is recorded is judged by what was read, and repeated if that is `again`. -/
theorem visits_judge (reliable : env.host.Reliable) (spares : env.host.Spares r.id)
    (hrunning : r.state = .running) {again : Walk (σ × List ServiceReply) Unit}
    (a : Answer (Option Contact)) (time : Instant)
    (repeated : (ActionResult.ofRead r.contact a).retryable = true →
      number < env.rules.strategy.maxAttempts →
      Walk.Leads Any (fun p w => p = ps ∧ Visiting r t (b.reread r node number a time) w) again
        (fun _ p w => Revisited env.rules.strategy g node r t b number ps p w)
        (BrokenOff env.rules.strategy node r t b number ps)) :
    Walk.Leads Any (fun p w => p = ps ∧ Visiting r t (b.reread r node number a time) w)
      (judge env.answered g r node number again (.ofRead r.contact a))
      (fun _ p w => Revisited env.rules.strategy g node r t b number ps p w)
        (BrokenOff env.rules.strategy node r t b number ps) := by
  unfold judge
  rw [ActionResult.ofRead_ok]
  by_cases brought : a.brings = true
  · rw [if_pos brought]
    refine .bind (B := fun _ p w => p = ps ∧ Visiting r t (b.reread r node number a time) w)
      (.update fun p w hw => ⟨?_, hw.2⟩) fun _ => ?_
    · rw [ActionResult.ofRead_emitted, List.append_nil]
      exact hw.1
    · refine (visits_goOn reliable spares hrunning).conseq (fun _ _ hw => hw) (fun _ p w hw => ?_)
        fun _ _ _ hw => hw
      exact ⟨[], a, _, .single time fun h => by simp [brought] at h, by rwa [if_pos brought]⟩
  rw [if_neg brought]
  split
  · rename_i spent
    refine (visits_failWalk reliable spares hrunning _).conseq (fun _ _ hw => hw)
      (fun _ p w hw => ?_) fun _ _ _ hw => hw
    exact ⟨[], a, _, .single time fun _ => .inl ((Bool.not_eq_true' _).mp spent),
      by rwa [if_neg brought]⟩
  · rename_i retried
    simp only [Bool.not_eq_true', Bool.not_eq_false] at retried
    have transient : (ActionResult.ofRead r.contact a).retryable = true := by
      rw [RetryStrategy.shouldRetry] at retried
      split at retried
      · cases retried
      · exact retried
    refine .bind (walk_sure ps visits_draw) fun u => ?_
    cases hdelay : env.rules.strategy.delay u number with
    | error f =>
      rintro p w ⟨rfl, hw⟩
      have hrun : env.answered.rules.strategy.delay u number = .error f := hdelay
      rw [hrun]
      exact ⟨.refl, ⟨f, rfl⟩, rfl, [], a, _, .single time fun _ => .inr ⟨u, f, hdelay⟩,
        Bool.eq_false_iff.2 brought, hw⟩
    | ok delay =>
      have hrun : env.answered.rules.strategy.delay u number = .ok delay := hdelay
      rw [hrun]
      exact .bind (B := fun _ p w => p = ps ∧ Visiting r t (b.reread r node number a time) w)
        (fun p w hw => ⟨.refl, hw⟩) fun delay => visits_again reliable spares hrunning delay
          (repeated transient (RetryStrategy.lt_of_shouldRetry retried))

theorem executeNode_of_sending {env : Environment σ} (sending : node.type.isSending = true)
    (resuming : Bool) :
    executeNode env g r node resuming = executeAction env g r node := by
  unfold executeNode
  unfold Node.type at sending
  cases hconfig : node.config <;> rw [hconfig] at sending <;> first | rfl | cases sending

section Loop

variable (reliable : env.host.Reliable) (spares : env.host.Spares r.id)
  (hrunning : r.state = .running)
  (sending : node.type.isSending = true)

include reliable spares hrunning sending

/-- One attempt at a node that has sent before. -/
theorem visits_tryOnce (sent : b.HasSuccess r.id node.id) (fits : Database.fitsColumn number = true)
    (fresh : ∀ o ∈ b.records, o.run = r.id → o.node = node.id → o.attempt < number)
    {again : Walk (σ × List ServiceReply) Unit} (repeated : ∀ (a : Answer (Option Contact)) time,
      (ActionResult.ofRead r.contact a).retryable = true → number < env.rules.strategy.maxAttempts →
      Walk.Leads Any (fun p w => p = ps ∧ Visiting r t (b.reread r node number a time) w) again
        (fun _ p w => Revisited env.rules.strategy g node r t b number ps p w)
        (BrokenOff env.rules.strategy node r t b number ps)) :
    Walk.Leads Any (fun p w => p = ps ∧ Visiting r t b w)
      (tryOnce env.answered g r node number again)
      (fun _ p w => Revisited env.rules.strategy g node r t b number ps p w)
      (BrokenOff env.rules.strategy node r t b number ps) := by
  rw [tryOnce_eq]
  refine .bind (walk_sure ps (visits_attempt reliable spares sending sent)) fun result => ?_
  rintro p w ⟨hp, a, rfl, hw⟩
  refine Walk.Leads.bind (walk_sure ps (visits_record reliable spares fits fresh a)) (fun _ => ?_)
    p w ⟨hp, hw⟩
  rintro p w ⟨hp, time, hw⟩
  exact visits_judge reliable spares hrunning a time (repeated a time) p w ⟨hp, hw⟩

/-- The attempts at a node that has sent before, from a number on. -/
theorem visits_tryAction (sent : b.HasSuccess r.id node.id) (left : Nat)
    (enough : env.rules.strategy.maxAttempts ≤ number + left)
    (fits : ∀ n, number ≤ n → n ≤ max number env.rules.strategy.maxAttempts →
      Database.fitsColumn n = true)
    (fresh : ∀ o ∈ b.records, o.run = r.id → o.node = node.id → o.attempt < number) :
    Walk.Leads Any (fun p w => p = ps ∧ Visiting r t b w)
      (tryAction env.answered g r node left number)
      (fun _ p w => Revisited env.rules.strategy g node r t b number ps p w)
      (BrokenOff env.rules.strategy node r t b number ps) := by
  have fit := fits _ (Int.le_refl _) (Int.le_max_left _ _)
  induction left generalizing b number with
  | zero =>
    refine visits_tryOnce reliable spares hrunning sending sent fit fresh fun a time _ remains => ?_
    omega
  | succ left ih =>
    refine visits_tryOnce reliable spares hrunning sending sent fit fresh
      fun a time transient remains => ?_
    refine (ih (sent.reread r node number a time) (by omega)
      (fun n hn hle => fits n (by omega) (by omega)) (fun o ho hrun hnode => ?_)
      (fits _ (by omega) (by omega))).conseq (fun _ _ hw => hw) (fun _ _ _ hw => hw.cons transient)
        fun _ _ _ hw => hw.cons transient
    rcases List.mem_append.1 ho with ho | ho
    · have := fresh o ho hrun hnode
      omega
    · rw [List.mem_singleton.1 ho]
      exact Int.lt_succ number

/-- A node that has sent before is executed by attempts from the next number on, also where as many
were made as are allowed. -/
theorem visits_executeNode {w₀ : World (σ × List ServiceReply)}
    (sent : w₀.db.hasSuccess r.id node.id = true) (counted : ∀ o ∈ w₀.db.records, 0 < o.attempt)
    (room : Database.fitsColumn
      (max (w₀.db.nextAttempt r.id node.id) env.rules.strategy.maxAttempts) = true)
    (resuming : Bool) :
    Walk.Leads Any (fun p w => p = ps ∧ Visiting r t w₀.account w)
      (executeNode env.answered g r node resuming)
      (fun _ p w => Revisited env.rules.strategy g node r t w₀.account
        (w₀.db.nextAttempt r.id node.id) ps p w)
      (BrokenOff env.rules.strategy node r t w₀.account (w₀.db.nextAttempt r.id node.id) ps) := by
  have sent' := Account.hasSuccess_iff.2 sent
  have records_eq {w : World (σ × List ServiceReply)} (hw : Visiting r t w₀.account w) :
      w.db.records = w₀.db.records := congrArg Account.records hw.account
  have nonneg := Database.nextAttempt_pos counted r.id node.id
  have tried (error : String) (isUsedUp : Bool) : Walk.Leads Any
      (fun p w => isUsedUp = false ∧ p = ps ∧ Visiting r t w₀.account w)
      (if isUsedUp then failWalk env.answered r.id error else tryAction env.answered g r node
        (env.rules.strategy.maxAttempts - w₀.db.nextAttempt r.id node.id).toNat
        (w₀.db.nextAttempt r.id node.id))
      (fun _ p w => Revisited env.rules.strategy g node r t w₀.account
        (w₀.db.nextAttempt r.id node.id) ps p w)
      (BrokenOff env.rules.strategy node r t w₀.account (w₀.db.nextAttempt r.id node.id) ps) := by
    refine .assume (q := isUsedUp = false) (fun _ _ hw => hw.1) ?_
    rintro rfl
    rw [if_neg Bool.false_ne_true]
    refine (visits_tryAction reliable spares hrunning sending sent' _ (by omega)
      (fun n hn hle => Database.fitsColumn_of_le (by omega) hle room)
      fun o ho hrun hnode => ?_).pre fun _ _ hw => hw.2
    rw [← hrun, ← hnode]
    exact Database.attempt_lt_nextAttempt ho
  rw [executeNode_of_sending sending]
  refine .bind (walk_sure ps (visits_look reliable spares .nextAttempt _)) fun number => ?_
  refine .assume (q := number = w₀.db.nextAttempt r.id node.id) (fun p w hw => ?_) ?_
  · rw [hw.2.2, Database.nextAttempt_congr (records_eq hw.2.1)]
  rintro rfl
  -- Whether as many attempts were made as are allowed or not, the node is not used up.
  dsimp only
  split
  · refine .bind (walk_sure ps ((visits_look reliable spares .hasSuccess _).pre fun _ hw => hw.1))
      fun found => .bind (.pure _ fun p w hw => ⟨?_, hw.1, hw.2.1⟩) (tried _)
    rw [hw.2.2, Database.hasSuccess_congr (records_eq hw.2.1), sent, Bool.not_true]
  · exact .bind (.pure _ fun p w hw => ⟨rfl, hw.1, hw.2.1⟩) (tried _)

end Loop

/-! ## The execution -/

theorem run_update (f : Progress → Progress) (p : Progress) (w : World σ) :
    (Walk.update f).run (p, w) = (.ok (), f p, w) :=
  rfl

theorem run_progress (p : Progress) (w : World σ) : Walk.progress.run (p, w) = (.ok p, p, w) := rfl

/-- A walk executes the node that it is on, and goes on if the run is running still. -/
theorem run_walk_succ {env : Environment σ} {run : Run} {p p' : Progress} {w w' w'' : World σ}
    {result : Except Halt Unit} (left : Nat)
    (running : (stateOf env run.id).run w = (.ok (some .running), w'))
    (hn : g.node? p.node = some node) :
    (executeNode env g run node p.resuming).run
      ({ p with outcome := { p.outcome with steps := p.outcome.steps + 1 } }, w')
        = (result, p', w'') →
    (walk env g run (left + 1)).run (p, w) =
      match result with
      | .error h => (.error h, p', w'')
      | .ok () => (if p'.outcome.state.isNone then walk env g run left else pure ()).run
          ({ p' with resuming := false }, w'') := by
  intro executed
  rw [walk, whileRunning, Walk.run_bind, Walk.run_engine, running]
  dsimp only
  rw [if_pos rfl, takeStep, Walk.run_bind, run_update]
  dsimp only
  rw [Walk.run_bind, run_progress]
  dsimp only
  rw [hn]
  dsimp only
  rw [Walk.run_bind, executed]
  rcases result with h | _
  · rfl
  · dsimp only
    rw [Walk.run_bind, run_update]
    dsimp only
    rw [Walk.run_bind, run_progress]

theorem visits_remember (id : String) (graph : Graph) :
    Leads Any (Visiting r t b) (remember (σ := σ × List ServiceReply) id graph)
      (fun _ => Visiting r t b) fun _ => False := by
  intro w hw
  have hrun : (remember id graph).run w = (.ok (), if (cached? id w.graphs).isSome then w
      else { w with graphs := w.graphs ++ [(id, graph)] }) := rfl
  rw [hrun]
  split
  · exact ⟨.refl, hw⟩
  · exact ⟨.single trivial, Showing.congr (w := w) rfl (Nat.le_refl _) hw.showing, hw.account⟩

/-- The graph of a stored definition is found. -/
theorem visits_graphOf (reliable : env.host.Reliable) (spares : env.host.Spares r.id)
    (id : String) :
    Leads Any (fun w => Visiting r t b w ∧ w.graphFor? id = some g) (graphOf env.answered id)
      (fun found w => found = g ∧ Visiting r t b w) fun _ => False := by
  unfold graphOf
  refine .bind (B := fun v w => v.graphFor? id = some g ∧ Visiting r t b w ∧
    w.db.definitions = v.db.definitions) (leads_get fun w hw => ⟨hw.2, hw.1, rfl⟩) fun v => ?_
  refine .assume (p := v.graphFor? id = some g) (fun _ hw => hw.1) fun hg => ?_
  split
  · rename_i found hcached
    rw [World.graphFor?, hcached] at hg
    exact .pure _ fun w hw => ⟨Option.some.inj hg, hw.2.1⟩
  · rename_i hcached
    rw [World.graphFor?, hcached] at hg
    obtain ⟨d, hd, hparse⟩ := Option.bind_eq_some_iff.1 hg
    have parsed : parse d.graph = .ok g := by
      cases hp : parse d.graph with
      | ok found => simpa [hp, Except.toOption] using hparse
      | error f => simp [hp, Except.toOption] at hparse
    have hdefinitions : Leads (Step env.answered (fun _ _ => True) .free)
        (fun w => w.db.definitions = v.db.definitions)
        (look env.answered .getDefinition fun db => db.definition? id) _ _ :=
      leads_look _ _ (.definitions fun l => l = v.db.definitions)
    refine .bind (B := fun found w => found = some d ∧ Visiting r t b w)
      (((visits_look reliable spares .getDefinition _).and hdefinitions).conseq
        (fun w hw => ⟨hw.2.1, hw.2.2⟩) (fun found w hw => ⟨?_, hw.1.1⟩) fun _ hw => hw.1)
      fun found => ?_
    · rw [hw.1.2, Database.definition?, hw.2.1]
      exact hd
    · refine .assume (p := found = some d) (fun _ hw => hw.1) ?_
      rintro rfl
      dsimp only
      rw [parsed]
      refine .bind (B := fun found w => found = g ∧ Visiting r t b w)
        (fun w hw => ⟨.refl, rfl, hw.2⟩) fun found => .assume (p := found = g) (fun _ hw => hw.1) ?_
      rintro rfl
      exact .bind ((visits_remember id found).pre fun _ hw => hw.2)
        fun _ => .pure _ fun _ hw => ⟨rfl, hw⟩

/-- What is left of an execution of a run whose walk has come so far, with some steps left. -/
def goFurther (env : Environment σ) (g : Graph) (run : Run) (left : Nat) (p : Progress) :
    Engine σ Outcome := do
  let o ← finish env run (walk env g run left) p
  if !o.emitted.isEmpty then
    let _ ← attempt (routeFollowUps env o.emitted)
  return o

/-- How a walk from a node that has sent before is concluded, after attempts that have come to this
account: it goes on from the next node if the contact was brought, and else the run has failed. -/
def Resolved (env : Environment σ) (g : Graph) (node : Node) (r : Run) (t : Instant) (b : Account)
    (last : Answer (Option Contact)) (w : World (σ × List ServiceReply))
    (execution : Except Failure Outcome × World (σ × List ServiceReply)) : Prop :=
  if last.brings then
    match g.nextNodeId? node.id .default with
    | some next => (∃ time, Visiting { r with node := next, updatedAt := time } t b w) ∧ execution =
        (finish env.answered r (walk env.answered g r g.size)
          ⟨next, false, { run := r.id, steps := 1 }⟩).run w
    | none => (∃ time, Visiting (Database.ended time .completed r.error r) t b w) ∧
        execution = (.ok { run := r.id, state := some .completed, steps := 1 }, w)
  else ∃ error,
    (∃ time, Visiting (Database.ended time .failed (some (Database.storedError error)) r) t b w) ∧
    execution = (.ok { run := r.id, state := some .failed, steps := 1, error := some error }, w)

/-- A walk that has come to the end of the attempts goes on, or is concluded as it is. -/
theorem Resolved.of_end {last : Answer (Option Contact)} {p : Progress} {resuming : Bool}
    {w : World (σ × List ServiceReply)}
    (hend : if last.brings then
        Passed g node r t b ⟨r.node, resuming, { run := r.id, steps := 1 }⟩ p w
      else Stranded r t b ⟨r.node, resuming, { run := r.id, steps := 1 }⟩ p w) :
    Resolved env g node r t b last w ((finish env.answered r
      (if p.outcome.state.isNone then walk env.answered g r g.size else pure ())
      { p with resuming := false }).run w) := by
  unfold Resolved
  by_cases brought : last.brings = true
  · rw [if_pos brought] at hend ⊢
    unfold Passed at hend
    cases hnext : g.nextNodeId? node.id .default with
    | some next =>
      rw [hnext] at hend
      obtain ⟨rfl, time, hw⟩ := hend
      exact ⟨⟨time, hw⟩, rfl⟩
    | none =>
      rw [hnext] at hend
      obtain ⟨rfl, time, hw⟩ := hend
      exact ⟨⟨time, hw⟩, rfl⟩
  · rw [if_neg brought] at hend ⊢
    obtain ⟨error, time, rfl, hw⟩ := hend
    exact ⟨error, ⟨time, hw⟩, rfl⟩

/-- A walk from a node that has sent before. -/
theorem exists_resolved (reliable : env.host.Reliable) (spares : env.host.Spares r.id)
    (hrunning : r.state = .running) (sending : node.type.isSending = true)
    (hn : g.node? r.node = some node) {w : World (σ × List ServiceReply)}
    (hw : Visiting r t w.account w)
    (graph : w.graphFor? r.definition = some g) (sent : w.db.hasSuccess r.id node.id = true)
    (counted : ∀ o ∈ w.db.records, 0 < o.attempt)
    (room : Database.fitsColumn (max (w.db.nextAttempt r.id node.id) env.rules.strategy.maxAttempts)
      = true) (resuming : Bool) :
    ∃ reads last b w', Revisit env.rules.strategy r node w.account (w.db.nextAttempt r.id node.id)
      reads last b ∧
      Resolved env g node r t b last w' ((walkRun env.answered resuming r).run w) := by
  obtain ⟨found, w₁, hgraph, -, rfl, hw₁⟩ :=
    (visits_graphOf (g := g) reliable spares r.definition).exists_ok ⟨hw, graph⟩
  obtain ⟨state, w₂, hstate, -, rfl, hw₂⟩ := (visits_stateOf reliable spares).exists_ok hw₁
  rw [hrunning] at hstate
  obtain ⟨-, visit⟩ := visits_executeNode (t := t) (g := found) reliable spares hrunning sending
    sent counted room resuming ⟨r.node, resuming, { run := r.id, steps := 1 }⟩ w₂ ⟨rfl, hw₂⟩
  rw [run_walkRun, walking, Walk.run_bind, Walk.run_engine, hgraph]
  dsimp only
  rcases hnode : (executeNode env.answered found r node resuming).run
    (⟨r.node, resuming, { run := r.id, steps := 1 }⟩, w₂) with ⟨h | _, p, w₃⟩
  · rw [hnode] at visit
    obtain ⟨⟨f, rfl⟩, rfl, reads, last, b, hrevisit, hlast, hw₃⟩ := visit
    rw [run_walk_succ (p := ⟨r.node, resuming, { run := r.id }⟩) _ hstate hn hnode]
    dsimp only
    obtain ⟨o, w₄, hfail, -, rfl, time, hw₄⟩ := (visits_failRun reliable spares hrunning
      (crashText r.node f) { run := r.id, steps := 1 }).exists_ok hw₃
    refine ⟨reads, last, b, w₄, hrevisit, ?_⟩
    rw [Resolved, if_neg (by rw [hlast]; exact Bool.false_ne_true)]
    refine ⟨crashText r.node f, ⟨time, hw₄⟩, ?_⟩
    rw [conclude, run_bind]
    dsimp only
    rw [hfail]
    rfl
  · rw [hnode] at visit
    obtain ⟨reads, last, b, hrevisit, hend⟩ := visit
    refine ⟨reads, last, b, w₃, hrevisit, ?_⟩
    rw [run_walk_succ (p := ⟨r.node, resuming, { run := r.id }⟩) _ hstate hn hnode]
    exact .of_end hend

/-- An execution of a running run on a node that has sent before makes reads of the contact and
nothing else there: each of them is one more attempt, those that fail for a while are followed by
another one as long as the strategy allows it, and so nothing is sent again. If the last read has
brought the contact, its attempt is recorded as skipped, and the execution goes on from the next
node, or completes the run where there is none; else the run is failed at the node. -/
theorem revisit_passes_if_read (reliable : env.host.Reliable) (spares : env.host.Spares r.id)
    (w : World (σ × List ServiceReply)) (distinct : (w.db.runs.map (·.id)).Nodup)
    (counted : ∀ o ∈ w.db.records, 0 < o.attempt) (stored : r ∈ w.db.runs)
    (running : r.state = .running) (graph : w.graphFor? r.definition = some g)
    (hn : g.node? r.node = some node) (sending : node.type.isSending = true)
    (sent : w.db.hasSuccess r.id r.node = true)
    (room : Database.fitsColumn (max (w.db.nextAttempt r.id r.node) env.rules.strategy.maxAttempts)
      = true) (resuming : Bool) :
    ∃ reads last w', Revisit env.rules.strategy r node w.account (w.db.nextAttempt r.id r.node)
        reads last w'.account ∧
      let execution :=
        (if resuming then resume env.answered r.id else advance env.answered r.id).run w
      if last.brings then
        match g.nextNodeId? r.node .default with
        | some next =>
          (∃ time, w'.db.run? r.id = some { r with node := next, updatedAt := time }) ∧ execution =
            (goFurther env.answered g r g.size ⟨next, false, { run := r.id, steps := 1 }⟩).run w'
        | none => (∃ time, w'.db.run? r.id = some (Database.ended time .completed r.error r)) ∧
            execution = (.ok { run := r.id, state := some .completed, steps := 1 }, w')
      else ∃ error,
        (∃ time, w'.db.run? r.id
          = some (Database.ended time .failed (some (Database.storedError error)) r)) ∧
        execution
          = (.ok { run := r.id, state := some .failed, steps := 1, error := some error }, w') := by
  have hid : node.id = r.node := (Graph.node?_spec hn).2
  have hw : Visiting r w.clock w.account w := ⟨⟨distinct, stored, Nat.le_refl _⟩, rfl⟩
  have unmoved : Unmoved env.answered (Visiting r w.clock w.account) := Visiting.unmoved spares
  have hw₀ : Visiting r w.clock w.account (w.read env.answered resuming) :=
    unmoved .getRun _ (unmoved _ w hw)
  have records_eq : (w.read env.answered resuming).db.records = w.db.records :=
    congrArg Account.records hw₀.account
  have hexecute : (if resuming then resume env.answered r.id else advance env.answered r.id)
      = runFrom env.answered (routeFollowUps env.answered) resuming r.id := by
    cases resuming <;> rfl
  obtain ⟨reads, last, b, w', hrevisit, hresolved⟩ := exists_resolved reliable spares running
    sending hn (hw₀.account ▸ hw₀) ((w.graphFor?_read env.answered resuming _).trans graph)
    (by rwa [Database.hasSuccess_congr records_eq, hid]) (records_eq ▸ counted)
    (by rwa [Database.nextAttempt_congr records_eq, hid]) resuming
  rw [hw₀.account, Database.nextAttempt_congr records_eq, hid] at hrevisit
  have hrun := run_runFrom reliable.answered (routeFollowUps env.answered) resuming
    (hw₀.showing.distinct.run?_eq_some hw₀.showing.row)
  rw [if_neg (not_not_intro running)] at hrun
  have found {r' : Run} (hw' : Visiting r' w.clock b w') : w'.db.run? r'.id = some r' :=
    hw'.showing.distinct.run?_eq_some hw'.showing.row
  refine ⟨reads, last, w', ?_⟩
  dsimp only
  rw [hexecute, hrun, run_bind]
  rw [Resolved, hid] at hresolved
  by_cases brought : last.brings = true
  · rw [if_pos brought] at hresolved ⊢
    cases hnext : g.nextNodeId? r.node .default with
    | some next =>
      rw [hnext] at hresolved
      obtain ⟨⟨time, hw'⟩, hwalk⟩ := hresolved
      exact ⟨hw'.account ▸ hrevisit, ⟨time, found hw'⟩, by rw [hwalk, goFurther, run_bind]⟩
    | none =>
      rw [hnext] at hresolved
      obtain ⟨⟨time, hw'⟩, hwalk⟩ := hresolved
      exact ⟨hw'.account ▸ hrevisit, ⟨time, found hw'⟩, by rw [hwalk]; rfl⟩
  · rw [if_neg brought] at hresolved ⊢
    obtain ⟨error, ⟨time, hw'⟩, hwalk⟩ := hresolved
    exact ⟨hw'.account ▸ hrevisit, error, ⟨time, found hw'⟩, by rw [hwalk]; rfl⟩

/-- Services that answer every read of a contact like this, and nothing else. -/
def reading (answer : Answer (Option Contact)) : Environment Unit :=
  { undisturbed with
    host := { undisturbed.host with
      service := fun call _ _ => match call with
        | .getContact .. => (⟨[], answer⟩, ())
        | _ => (⟨[], .silence⟩, ()) } }

/-- The run of `welcome` as it is on the node of its mail. -/
def posted : Run :=
  .created ⟨5⟩ "run-1" Database.welcome "c-1" "mail" .null 0

/-- A workflow that sends a mail and is done. -/
def posting : Graph :=
  ⟨[⟨"start", .trigger "contact_created" none none, ""⟩, ⟨"mail", .sendEmail "hello" none, ""⟩],
    [⟨0, 1, .default⟩]⟩

/-- A worker that died between the record of the mail and the next write to its run. -/
def interrupted : World (Unit × List ServiceReply) where
  db := { Database.begun with
    runs := [posted]
    records := [⟨"run-1", "mail", "send_email", 1, .success, none, none, ⟨7⟩⟩] }
  clock := ⟨9⟩
  graphs := [("welcome-1", posting)]
  turns := []
  calls := []
  waits := []
  host := ((), [])

/-- A mail that was sent is not sent again when the run is executed anew, and the run is completed.
-/
theorem revisit_passes_if_read_of_interrupted :
    let env := reading (.value (some greeted))
    let execution := (advance env.answered "run-1").run interrupted
    env.host.Reliable ∧ env.host.Spares "run-1" ∧ (interrupted.db.runs.map (·.id)).Nodup ∧
    (∀ o ∈ interrupted.db.records, 0 < o.attempt) ∧ posted ∈ interrupted.db.runs ∧
    posted.state = .running ∧ interrupted.graphFor? "welcome-1" = some posting ∧
    interrupted.db.hasSuccess "run-1" "mail" = true ∧
    Database.fitsColumn (max (interrupted.db.nextAttempt "run-1" "mail")
      env.rules.strategy.maxAttempts) = true ∧
    (∃ reads last w', Revisit env.rules.strategy posted ⟨"mail", .sendEmail "hello" none, ""⟩
      interrupted.account 2 reads last w'.account ∧ last.brings = true ∧
      (∃ time, w'.db.run? "run-1" = some (Database.ended time .completed none posted)) ∧
      execution = (.ok { run := "run-1", state := some .completed, steps := 1 }, w')) ∧
    execution.2.db.records.map (fun o => (o.attempt, o.outcome)) = [(1, .success), (2, .skipped)] ∧
    execution.2.calls.filterMap (·.key?) = [] := by
  intro env execution
  have reliable : env.host.Reliable := fun _ _ _ => rfl
  have spares : env.host.Spares "run-1" := by
    refine ⟨fun _ _ _ => List.not_mem_nil, fun call _ _ => ?_, fun _ _ _ => List.not_mem_nil⟩
    cases call <;> exact List.not_mem_nil
  have distinct : (interrupted.db.runs.map (·.id)).Nodup := by decide
  have counted : ∀ o ∈ interrupted.db.records, 0 < o.attempt := by decide
  have stored : posted ∈ interrupted.db.runs := List.mem_singleton_self _
  have graph : interrupted.graphFor? "welcome-1" = some posting := rfl
  have sent : interrupted.db.hasSuccess "run-1" "mail" = true := by decide
  have room : Database.fitsColumn (max (interrupted.db.nextAttempt "run-1" "mail")
      env.rules.strategy.maxAttempts) = true := by decide +kernel
  have completed : (execution.1.toOption.bind (·.state)) = some .completed := by decide +kernel
  obtain ⟨reads, last, w', hrevisit, hend⟩ := revisit_passes_if_read reliable spares interrupted
    distinct counted stored rfl graph rfl rfl sent room false
  refine ⟨reliable, spares, distinct, counted, stored, rfl, graph, sent, room, ⟨reads, last, w',
    hrevisit, ?_⟩, by decide +kernel, by decide +kernel⟩
  by_cases brought : last.brings = true
  · rw [if_pos brought] at hend
    exact ⟨brought, hend⟩
  · rw [if_neg brought] at hend
    obtain ⟨error, -, hexecution⟩ := hend
    have : execution.1.toOption.bind (·.state) = some .failed := by
      rw [show execution = _ from hexecution]
      rfl
    rw [completed] at this
    cases this

/-- A run whose mail was sent, and recorded as sent, fails at this mail if its contact is there no
more. -/
theorem sent_mail_fails_run :
    let env := reading (.value none)
    let execution := (advance env.answered "run-1").run interrupted
    env.host.Reliable ∧ env.host.Spares "run-1" ∧ posted ∈ interrupted.db.runs ∧
    posted.state = .running ∧
    posting.node? posted.node = some ⟨"mail", .sendEmail "hello" none, ""⟩ ∧
    interrupted.db.hasSuccess "run-1" "mail" = true ∧
    execution.2.db.records.map (fun o => (o.attempt, o.outcome)) = [(1, .success), (2, .failed)] ∧
    execution.2.db.runs.map (fun r => (r.id, r.node, r.state)) = [("run-1", "mail", .failed)] ∧
    (execution.1.toOption.bind (·.error)) =
      some "send_email node mail failed on attempt 2 (fatal error): Contact c-1 not found" := by
  refine ⟨fun _ _ _ => rfl, ⟨fun _ _ _ => List.not_mem_nil, fun call _ _ => ?_,
    fun _ _ _ => List.not_mem_nil⟩, List.mem_singleton_self _, rfl, rfl, by decide,
    by decide +kernel, by decide +kernel, by decide +kernel⟩
  cases call <;> exact List.not_mem_nil

end Engine

end CrmAutomation
