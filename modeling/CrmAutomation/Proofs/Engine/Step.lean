import CrmAutomation.Engine.Sweep
import CrmAutomation.Proofs.Store.Lifecycle

/-!
# The steps of the engine

All that the engine does to the world is done in steps of a few kinds (`Step`). Most of them leave
the database to the host, which may cancel runs (`Database.Concedes`); the others are one command
to the table of runs or one record, and each has a condition: where a run may be moved
(`Graph.Follows`) and when (`Graph.MayLeave`), what may be recorded (`Database.Admits`), what may be
sent (`Database.Unsent`). The conditions speak of the database at the moment of the write, so what a
step keeps can be read off them, and no proof about histories has to look into the engine again.

Steps know the graph of a definition only through a relation `G` between definition ids and graphs.
What the database does not tell by itself is left to a `Scope`: which of the commands that come from
outside an advance may be made, and which delays are left without a look into the trail.
-/

namespace CrmAutomation

/-! ## Runs cancelled by others -/

namespace Run

/-- A row that was left alone, or was active and is cancelled now. -/
def Conceded (r r' : Run) : Prop :=
  r' = r ∨ r.state.isActive ∧ ∃ time, r' = Database.ended time .cancelled r.error r

namespace Conceded

variable {r r' r'' : Run}

theorem refl (r : Run) : r.Conceded r := Or.inl rfl

theorem trans (h : r.Conceded r') (h' : r'.Conceded r'') : r.Conceded r'' := by
  rcases h with rfl | ⟨hact, time, rfl⟩
  · exact h'
  · rcases h' with rfl | ⟨hact', -⟩
    · exact Or.inr ⟨hact, time, rfl⟩
    · simp [Database.ended, RunState.isActive] at hact'

theorem id_eq (h : r.Conceded r') : r'.id = r.id := by
  rcases h with rfl | ⟨-, time, rfl⟩ <;> rfl

theorem definition_eq (h : r.Conceded r') : r'.definition = r.definition := by
  rcases h with rfl | ⟨-, time, rfl⟩ <;> rfl

theorem organization_eq (h : r.Conceded r') : r'.organization = r.organization := by
  rcases h with rfl | ⟨-, time, rfl⟩ <;> rfl

theorem node_eq (h : r.Conceded r') : r'.node = r.node := by
  rcases h with rfl | ⟨-, time, rfl⟩ <;> rfl

theorem state_eq (h : r.Conceded r') : r'.state = r.state ∨ r'.state = .cancelled := by
  rcases h with rfl | ⟨-, time, rfl⟩
  · exact Or.inl rfl
  · exact Or.inr rfl

end Conceded

end Run

namespace Database

/-- The same database but for runs that have been cancelled. -/
structure Concedes (d d' : Database) : Prop where
  definitions_eq : d'.definitions = d.definitions
  records_eq : d'.records = d.records
  runs : ∃ f : Run → Run, d'.runs = d.runs.map f ∧ ∀ r : Run, r.Conceded (f r)

namespace Concedes

variable {d d' d'' : Database}

theorem refl (d : Database) : d.Concedes d :=
  ⟨rfl, rfl, id, by simp, fun r => .refl r⟩

theorem trans (h : d.Concedes d') (h' : d'.Concedes d'') : d.Concedes d'' := by
  obtain ⟨f, hf, hfr⟩ := h.runs
  obtain ⟨g, hg, hgr⟩ := h'.runs
  exact ⟨h'.definitions_eq.trans h.definitions_eq, h'.records_eq.trans h.records_eq, g ∘ f,
    by rw [hg, hf, List.map_map], fun r => (hfr r).trans (hgr (f r))⟩

theorem cancel (time : Instant) (id : String) (d : Database) :
    d.Concedes (d.cancel time id).2 := by
  refine ⟨rfl, rfl, _, rfl, fun r => ?_⟩
  split
  · rename_i h
    exact Or.inr ⟨(Bool.and_eq_true _ _ ▸ h).2, time, rfl⟩
  · exact .refl r

theorem cancelAll (time : Instant) (ids : List String) (d : Database) :
    d.Concedes (Engine.cancelAll time ids d) := by
  induction ids generalizing d with
  | nil => exact .refl d
  | cons id ids ih => exact (cancel time id d).trans (ih _)

/-- Every row is still there, unless it was cancelled. -/
theorem exists_after (h : d.Concedes d') {r : Run} (hr : r ∈ d.runs) :
    ∃ r' ∈ d'.runs, r.Conceded r' := by
  obtain ⟨f, hf, hfr⟩ := h.runs
  exact ⟨f r, hf ▸ List.mem_map_of_mem hr, hfr r⟩

theorem exists_before (h : d.Concedes d') {r' : Run} (hr' : r' ∈ d'.runs) :
    ∃ r ∈ d.runs, r.Conceded r' := by
  obtain ⟨f, hf, hfr⟩ := h.runs
  obtain ⟨r, hr, rfl⟩ := List.mem_map.1 (hf ▸ hr')
  exact ⟨r, hr, hfr r⟩

theorem ids_eq (h : d.Concedes d') : d'.runs.map (·.id) = d.runs.map (·.id) := by
  obtain ⟨f, hf, hfr⟩ := h.runs
  simp [hf, (hfr _).id_eq]

theorem recordsOf_eq (h : d.Concedes d') : d'.recordsOf = d.recordsOf := by
  funext run node
  simp only [recordsOf, h.records_eq]

theorem hasSuccess_eq (h : d.Concedes d') : d'.hasSuccess = d.hasSuccess := by
  funext run node
  simp only [hasSuccess, h.recordsOf_eq]

theorem nextAttempt_eq (h : d.Concedes d') : d'.nextAttempt = d.nextAttempt := by
  funext run node
  simp only [nextAttempt, h.recordsOf_eq]

end Concedes

end Database

/-! ## Where a run may go -/

/-- The record that was last written of the successes of a node of a run. -/
def Database.latestSuccess? (db : Database) (run node : String) : Option NodeRecord :=
  ((db.recordsOf run node).filter fun r => r.outcome == .success).getLast?

/-- The branch that the record of a condition tells. -/
def NodeRecord.branch? (r : NodeRecord) : Option Handle :=
  match r.output with
  | some output => (output.field "branch").str?.bind Handle.ofText?
  | none => none

namespace Graph

/-- The handle on which a run leaves the node it is on: the branch in the latest success record of
a condition, the default handle of every other node. -/
def handle? (g : Graph) (db : Database) (r : Run) : Option Handle :=
  match (g.node? r.node).map Node.config with
  | some (.condition _) => (db.latestSuccess? r.id r.node).bind NodeRecord.branch?
  | _ => some .default

/-- From the node that a run is on the graph leads to `next`, or nowhere. -/
def Follows (g : Graph) (db : Database) (r : Run) (next : Option String) : Prop :=
  ∃ handle, g.handle? db r = some handle ∧ g.nextNodeId? r.node handle = next

theorem Follows.of_concedes {g : Graph} {d d' : Database} {r r' : Run} {next : Option String}
    (h : d.Concedes d') (hr : r.Conceded r') : g.Follows d' r' next ↔ g.Follows d r next := by
  simp only [Follows, handle?, Database.latestSuccess?, h.recordsOf_eq, hr.id_eq, hr.node_eq]

end Graph

/-! ## Conditions of steps -/

/-- What a computation may do that the database does not tell by itself. -/
structure Scope where
  /-- The claims, releases and cancels that may be made. -/
  outside : Database → RunCommand → Prop
  /-- The runs, each with a node, that leave it as a delay that is over, recorded or not. -/
  elapsed : String → String → Prop

namespace Scope

/-- Everything may be done. -/
def free : Scope where
  outside _ _ := True
  elapsed _ _ := True

/-- Nobody claims, releases or cancels a run. -/
def own : Scope where
  outside _ _ := False
  elapsed _ _ := True

end Scope

/-- Node types of which the work reaches the outside and is not done again. -/
def NodeType.isSending : NodeType → Bool
  | .sendEmail => true
  | .webhook => true
  | _ => false

/-- What tells the receiver of a call that it got it before. -/
def ServiceCall.key? : ServiceCall → Option String
  | .sendTemplate _ mail => some mail.key
  | .deliver _ delivery => some delivery.id
  | _ => none

namespace Database

/-- Something that is sent is sent for a run on a sending node that has no success yet. -/
def Unsent (G : String → Graph → Prop) (db : Database) (call : ServiceCall) : Prop :=
  ∀ key, call.key? = some key → ∃ r ∈ db.runs, key = r.id ++ ":" ++ r.node ∧
    db.hasSuccess r.id r.node = false ∧
    ∃ g n, G r.definition g ∧ g.node? r.node = some n ∧ n.type.isSending

/-- A success or a skipped attempt of a node of a run is recorded. -/
def Settled (db : Database) (run node : String) : Prop :=
  ∃ o ∈ db.recordsOf run node, o.outcome = .success ∨ o.outcome = .skipped

/-- A record is about the node that a run is on, is the next attempt there, and tells a success of a
sending node only if there was none before. Of a delay it is made when the run was suspended. -/
def Admits (G : String → Graph → Prop) (db : Database) (record : NodeRecord) : Prop :=
  ∃ r ∈ db.runs, record.run = r.id ∧ record.node = r.node ∧
    record.attempt = db.nextAttempt r.id r.node ∧
    ∃ g n, G r.definition g ∧ g.node? r.node = some n ∧ record.nodeType = n.type.text ∧
      (n.type.isSending → record.outcome = .success → db.hasSuccess r.id r.node = false) ∧
      (n.type = .delay → r.state ≠ .running)

end Database

/-- The node that a run is on may be left: it is a trigger, or settled, or a delay that is over. -/
def Graph.MayLeave (g : Graph) (scope : Scope) (db : Database) (r : Run) : Prop :=
  ∀ n, g.node? r.node = some n → n.type ≠ .trigger →
    db.Settled r.id r.node ∨ n.type = .delay ∧ scope.elapsed r.id r.node

theorem Graph.MayLeave.of_concedes {g : Graph} {scope : Scope} {d d' : Database} {r r' : Run}
    (h : d.Concedes d') (hr : r.Conceded r') : g.MayLeave scope d' r' ↔ g.MayLeave scope d r := by
  simp only [MayLeave, Database.Settled, h.recordsOf_eq, hr.id_eq, hr.node_eq]

/-- A run stands on a delay of so many minutes. -/
def Run.OnDelay (G : String → Graph → Prop) (r : Run) (minutes : Int) : Prop :=
  ∃ g n, G r.definition g ∧ g.node? r.node = some n ∧ n.config = .delay minutes

/-- Whether a command begins a run. -/
def RunCommand.isCreate : RunCommand → Bool
  | create .. => true
  | _ => false

/-- What the engine may command of a database: runs begin at the trigger of their graph, go where
it leads once the node that they are on may be left, and are suspended where they are; the scope
tells whether they may be claimed, released and cancelled. -/
def RunCommand.Allowed (G : String → Graph → Prop) (scope : Scope) (db : Database) :
    RunCommand → Prop
  | create _ d _ node _ _ =>
    d ∈ db.definitions ∧ ∃ g trigger, G d.id g ∧ g.trigger? = some trigger ∧ node = trigger.id
  | moveTo run node => ∀ r ∈ db.runs, r.id = run →
    ∃ g, G r.definition g ∧ g.Follows db r (some node) ∧ g.MayLeave scope db r
  | complete run => ∀ r ∈ db.runs, r.id = run →
    ∃ g, G r.definition g ∧ g.Follows db r none ∧ g.MayLeave scope db r
  | suspend run node _ => ∀ r ∈ db.runs, r.id = run → r.node = node
  | fail .. => True
  | cancel run => scope.outside db (cancel run)
  | claimSuspended c => scope.outside db (claimSuspended c)
  | release c resumeAt => scope.outside db (release c resumeAt)
  | claimStale c => scope.outside db (claimStale c)

/-- A run is suspended for as long as the delay that it is on takes from the time `time`. -/
def RunCommand.Timely (G : String → Graph → Prop) (time : Instant) (db : Database) :
    RunCommand → Prop
  | suspend run _ resumeAt => ∀ r ∈ db.runs, r.id = run →
    ∃ minutes, r.OnDelay G minutes ∧ time.addMinutes minutes = .ok resumeAt
  | _ => True

/-! ## Steps -/

namespace World

variable {σ : Type}

/-- The world after others have cancelled runs. -/
def conceded (ids : List String) (w : World σ) : World σ :=
  { w with clock := w.clock.later 1, db := Engine.cancelAll (w.clock.later 1) ids w.db }

/-- The world after what the host does before a call to the database. -/
def interrupted (env : Environment σ) (call : StorageCall) (w : World σ) : World σ :=
  { w with host := (env.host.storage call w.db w.host).2 }.conceded
    (env.host.storage call w.db w.host).1.cancelled

/-- The world after a call to a service. -/
def served (env : Environment σ) (call : ServiceCall) (w : World σ) : World σ :=
  { w with
    calls := w.calls ++ [call]
    host := (env.host.service call w.db w.host).2 }.conceded
    (env.host.service call w.db w.host).1.cancelled

/-- The world after a wait. -/
def waited (env : Environment σ) (delay : Double) (w : World σ) : World σ :=
  { w with
    waits := w.waits ++ [delay]
    host := (env.host.wait delay w.db w.host).2 }.conceded (env.host.wait delay w.db w.host).1

/-- The world after an identifier was made up. -/
def named (env : Environment σ) (kind : IdKind) (w : World σ) : World σ :=
  { w with host := (env.host.freshId kind w.db w.host).2 }

/-- The world after a command to the table of runs. -/
def commanded (c : RunCommand) (w : World σ) : World σ :=
  { w with clock := w.clock.later 1, db := c.perform (w.clock.later 1) w.db }

/-- The world with one more record. -/
def recorded (r : NodeRecord) (w : World σ) : World σ :=
  { w with clock := w.clock.later 1, db := { w.db with records := w.db.records ++ [r] } }

end World

variable {σ : Type}

/-- One step of the engine. -/
inductive Step (env : Environment σ) (G : String → Graph → Prop) (scope : Scope) (w : World σ) :
    World σ → Prop where
  | tick : Step env G scope w { w with clock := w.clock.later 1 }
  | name (kind : IdKind) : Step env G scope w (w.named env kind)
  | draw : Step env G scope w { w with host := (env.host.draw w.host).2 }
  | wait (delay : Double) : Step env G scope w (w.waited env delay)
  | interrupt (call : StorageCall) : Step env G scope w (w.interrupted env call)
  | serve (call : ServiceCall) (unsent : w.db.Unsent G call) :
    Step env G scope w (w.served env call)
  | remember (id : String) (g : Graph) (known : G id g) :
    Step env G scope w { w with graphs := w.graphs ++ [(id, g)] }
  | turn (turns : Turns (String × String)) : Step env G scope w { w with turns := turns }
  | command (call : StorageCall) (c : RunCommand) (old : c.isCreate = false)
      (allowed : c.Allowed G scope (w.interrupted env call).db)
      (timely : c.Timely G w.clock (w.interrupted env call).db) :
    Step env G scope w ((w.interrupted env call).commanded c)
  | create (d : Definition) (contact node : String) (event : Value) (chainDepth : Int)
      (allowed : (RunCommand.create (env.host.freshId .run w.db w.host).1 d contact node event
        chainDepth).Allowed G scope w.db) :
    Step env G scope w ((w.named env .run).commanded
      (.create (env.host.freshId .run w.db w.host).1 d contact node event chainDepth))
  | record (r : NodeRecord) (admitted : (w.interrupted env .record).db.Admits G r) :
    Step env G scope w ((w.interrupted env .record).recorded r)

/-! ## What steps do to the database -/

/-- The effect of a step on the database: others cancel runs, and then a command is performed, an
attempt is recorded, or nothing else happens. -/
inductive Database.Effect (G : String → Graph → Prop) (scope : Scope) (d : Database) :
    Database → Prop where
  | concede {d' : Database} (conceded : d.Concedes d') : Effect G scope d d'
  | command {d₁ : Database} (conceded : d.Concedes d₁) (now : Instant) (c : RunCommand)
      (allowed : c.Allowed G scope d₁) : Effect G scope d (c.perform now d₁)
  | record {d₁ : Database} (conceded : d.Concedes d₁) (r : NodeRecord)
      (admitted : d₁.Admits G r) : Effect G scope d { d₁ with records := d₁.records ++ [r] }

namespace World

theorem concedes_interrupted (env : Environment σ) (call : StorageCall) (w : World σ) :
    w.db.Concedes (w.interrupted env call).db :=
  .cancelAll _ _ w.db

theorem concedes_served (env : Environment σ) (call : ServiceCall) (w : World σ) :
    w.db.Concedes (w.served env call).db :=
  .cancelAll _ _ w.db

theorem concedes_waited (env : Environment σ) (delay : Double) (w : World σ) :
    w.db.Concedes (w.waited env delay).db :=
  .cancelAll _ _ w.db

end World

variable {env : Environment σ} {G : String → Graph → Prop} {scope : Scope} {w w' : World σ}

theorem Step.effect (h : Step env G scope w w') : w.db.Effect G scope w'.db := by
  cases h with
  | wait delay => exact .concede (w.concedes_waited env delay)
  | interrupt call => exact .concede (w.concedes_interrupted env call)
  | serve call => exact .concede (w.concedes_served env call)
  | command call c _ allowed => exact .command (w.concedes_interrupted env call) _ c allowed
  | create d contact node event chainDepth allowed => exact .command (.refl _) _ _ allowed
  | record r admitted => exact .record (w.concedes_interrupted env .record) r admitted
  | tick | name | draw | remember | turn => exact .concede (.refl _)

theorem Instant.micros_later_one (t : Instant) : (t.later 1).micros = t.micros + 1 := by
  simp only [later]
  omega

/-- The clock never goes back, and a command is performed at the time that it shows afterwards; how
long a run is suspended was reckoned from the time before. -/
theorem Step.timed (h : Step env G scope w w') : w.clock.micros ≤ w'.clock.micros ∧
    (w.db.Concedes w'.db ∨
      (∃ (d : Database) (c : RunCommand), w.db.Concedes d ∧ c.Allowed G scope d ∧
        c.Timely G w.clock d ∧ w'.db = c.perform w'.clock d) ∨
      ∃ d r, w.db.Concedes d ∧ d.Admits G r ∧ w'.db = { d with records := d.records ++ [r] }) := by
  have later : ∀ t : Instant, t.micros ≤ (t.later 1).micros := fun t => by
    rw [t.micros_later_one]
    omega
  cases h with
  | tick => exact ⟨later _, Or.inl (.refl _)⟩
  | name | draw | remember | turn => exact ⟨Nat.le_refl _, Or.inl (.refl _)⟩
  | wait delay => exact ⟨later _, Or.inl (w.concedes_waited env delay)⟩
  | interrupt call => exact ⟨later _, Or.inl (w.concedes_interrupted env call)⟩
  | serve call => exact ⟨later _, Or.inl (w.concedes_served env call)⟩
  | command call c _ allowed timely =>
    exact ⟨Nat.le_trans (later _) (later _), Or.inr (Or.inl
      ⟨_, c, w.concedes_interrupted env call, allowed, timely, rfl⟩)⟩
  | create d contact node event chainDepth allowed =>
    exact ⟨later _, Or.inr (Or.inl ⟨_, _, .refl _, allowed, trivial, rfl⟩)⟩
  | record r admitted =>
    exact ⟨Nat.le_trans (later _) (later _), Or.inr (Or.inr
      ⟨_, r, w.concedes_interrupted env .record, admitted, rfl⟩)⟩

/-! ## What every step keeps -/

namespace Database

theorem le_foldl_max (a : Int) (l : List Int) : a ≤ l.foldl max a := by
  induction l generalizing a with
  | nil => exact Int.le_refl a
  | cons b l ih => exact Int.le_trans (Int.le_max_left a b) (ih (max a b))

/-- Attempts are counted from one on. -/
theorem nextAttempt_pos {db : Database} (h : ∀ r ∈ db.records, 0 < r.attempt)
    (run node : String) : 0 < db.nextAttempt run node := by
  unfold nextAttempt
  split
  · decide
  · rename_i a rest heq
    have ha : a ∈ (db.recordsOf run node).map (·.attempt) := heq ▸ List.mem_cons_self
    obtain ⟨r, hr, rfl⟩ := List.mem_map.1 ha
    have := h r (List.mem_filter.1 hr).1
    have := le_foldl_max r.attempt rest
    omega

variable {d d' : Database}

theorem Effect.definitions_eq (h : d.Effect G scope d') : d'.definitions = d.definitions := by
  cases h with
  | concede conceded => exact conceded.definitions_eq
  | command conceded now c _ => rw [c.definitions_perform, conceded.definitions_eq]
  | record conceded r _ => exact conceded.definitions_eq

theorem Effect.nodup_ids (h : d.Effect G scope d') (hd : (d.runs.map (·.id)).Nodup) :
    (d'.runs.map (·.id)).Nodup := by
  cases h with
  | concede conceded => rwa [conceded.ids_eq]
  | command conceded now c _ => exact c.nodup_ids_perform now (by rwa [conceded.ids_eq])
  | record conceded r _ => rwa [← conceded.ids_eq] at hd

theorem Effect.attempts_pos (h : d.Effect G scope d') (hd : ∀ r ∈ d.records, 0 < r.attempt) :
    ∀ r ∈ d'.records, 0 < r.attempt := by
  cases h with
  | concede conceded => rwa [conceded.records_eq]
  | command conceded now c _ => rwa [c.records_perform, conceded.records_eq]
  | record conceded r admitted =>
    rw [← conceded.records_eq] at hd
    intro o ho
    rcases List.mem_append.1 ho with ho | ho
    · exact hd o ho
    · obtain ⟨_, _, _, _, hattempt, _⟩ := admitted
      rw [List.mem_singleton.1 ho, hattempt]
      exact nextAttempt_pos hd _ _

/-- No row is ever removed, or given to another definition. -/
theorem Effect.exists_after (h : d.Effect G scope d') {r : Run} (hr : r ∈ d.runs) :
    ∃ r' ∈ d'.runs, r'.id = r.id ∧ r'.definition = r.definition := by
  cases h with
  | concede conceded =>
    obtain ⟨r', hr', hc⟩ := conceded.exists_after hr
    exact ⟨r', hr', hc.id_eq, hc.definition_eq⟩
  | command conceded now c _ =>
    obtain ⟨r₁, hr₁, hc⟩ := conceded.exists_after hr
    obtain ⟨r', hr', rfl | hw⟩ := c.exists_perform now hr₁
    · exact ⟨r', hr', hc.id_eq, hc.definition_eq⟩
    · exact ⟨r', hr', hw.id_eq.trans hc.id_eq, hw.definition_eq.trans hc.definition_eq⟩
  | record conceded o _ =>
    obtain ⟨r', hr', hc⟩ := conceded.exists_after hr
    exact ⟨r', hr', hc.id_eq, hc.definition_eq⟩

theorem Effect.exists_id (h : d.Effect G scope d') {id : String} (hd : ∃ r ∈ d.runs, r.id = id) :
    ∃ r ∈ d'.runs, r.id = id := by
  obtain ⟨r, hr, rfl⟩ := hd
  obtain ⟨r', hr', hid, -⟩ := h.exists_after hr
  exact ⟨r', hr', hid⟩

/-- Records stay as they are, and at most one is added: about the node that a run is on, and a
success of a sending node only if it had none. -/
theorem Effect.records (h : d.Effect G scope d') : d'.records = d.records ∨
    ∃ o, d'.records = d.records ++ [o] ∧ ∃ r ∈ d'.runs, o.run = r.id ∧ o.node = r.node ∧
      ∃ g n, G r.definition g ∧ g.node? r.node = some n ∧ o.nodeType = n.type.text ∧
        (n.type.isSending → o.outcome = .success → d.hasSuccess r.id r.node = false) := by
  cases h with
  | concede conceded => exact Or.inl conceded.records_eq
  | command conceded now c _ => exact Or.inl ((c.records_perform now _).trans conceded.records_eq)
  | record conceded o admitted =>
    obtain ⟨r, hr, hrun, hnode, -, g, n, hg, hn, htype, hunsent, -⟩ := admitted
    rw [conceded.hasSuccess_eq] at hunsent
    exact Or.inr ⟨o, by rw [conceded.records_eq], r, hr, hrun, hnode, g, n, hg, hn, htype, hunsent⟩

/-- Records are only ever added. -/
theorem Effect.records_prefix (h : d.Effect G scope d') : d.records <+: d'.records := by
  rcases h.records with heq | ⟨o, heq, -⟩
  · exact heq ▸ List.prefix_refl _
  · exact ⟨[o], heq.symm⟩

theorem Settled.mono {run node : String} (h : d.records <+: d'.records)
    (hd : d.Settled run node) : d'.Settled run node := by
  obtain ⟨o, ho, houtcome⟩ := hd
  obtain ⟨hmem, hkey⟩ := List.mem_filter.1 ho
  exact ⟨o, List.mem_filter.2 ⟨h.subset hmem, hkey⟩, houtcome⟩

end Database

/-- The tables are in order, and every graph that is stored or was parsed before is the graph of its
definition. -/
structure Sound (G : String → Graph → Prop) (w : World σ) : Prop where
  ids : (w.db.runs.map (·.id)).Nodup
  attempts : ∀ r ∈ w.db.records, 0 < r.attempt
  stored : ∀ d ∈ w.db.definitions, ∀ g, Engine.parse d.graph = .ok g → G d.id g
  cached : ∀ p ∈ w.graphs, G p.1 p.2

theorem Step.sound (h : Step env G scope w w') (hw : Sound G w) : Sound G w' := by
  refine ⟨h.effect.nodup_ids hw.ids, h.effect.attempts_pos hw.attempts,
    h.effect.definitions_eq ▸ hw.stored, ?_⟩
  cases h with
  | remember id g known =>
    intro p hp
    rcases List.mem_append.1 hp with hp | hp
    · exact hw.cached p hp
    · exact List.mem_singleton.1 hp ▸ known
  | tick | name | draw | wait | interrupt | serve | turn | command | create | record =>
    exact hw.cached

end CrmAutomation
