import CrmAutomation.Proofs.Engine.Step
import CrmAutomation.Proofs.Engine.Triple

/-!
# The calls of the engine

What a call to the database or to a service does is a step, and between the engine's own writes
only others write: they cancel runs. An assertion that such cancels leave alone is calm (`Calm`),
and a computation that makes no write keeps every calm assertion (`Keeps`). The triples of the
calls that write say what holds after the write. A call to the database fails only where the host
makes it fail (`Host.Sure`, `Host.Reliable`).
-/

namespace CrmAutomation

variable {σ α β : Type}

/-- A host that makes no call to the database fail. -/
def Host.Reliable (host : Host σ) : Prop :=
  ∀ call db s, (host.storage call db s).1.failure = none

/-- A host that never makes this call to the database fail. -/
def Host.Sure (host : Host σ) (call : StorageCall) : Prop :=
  ∀ db s, (host.storage call db s).1.failure = none

theorem Host.Reliable.sure {host : Host σ} (h : host.Reliable) (call : StorageCall) :
    host.Sure call :=
  h call

/-! ## What cancels leave alone -/

/-- An assertion on the database that stays true while others cancel runs. -/
def Calm (A : World σ → Prop) : Prop := ∀ w w' : World σ, w.db.Concedes w'.db → A w → A w'

namespace Calm

variable {A B : World σ → Prop}

theorem and (hA : Calm A) (hB : Calm B) : Calm fun w => A w ∧ B w :=
  fun w w' h hw => ⟨hA w w' h hw.1, hB w w' h hw.2⟩

theorem const (p : Prop) : Calm fun _ : World σ => p := fun _ _ _ hp => hp

theorem definitions (p : List Definition → Prop) :
    Calm fun w : World σ => p w.db.definitions :=
  fun _ _ h hw => (congrArg p h.definitions_eq).mpr hw

theorem records (p : List NodeRecord → Prop) : Calm fun w : World σ => p w.db.records :=
  fun _ _ h hw => (congrArg p h.records_eq).mpr hw

theorem hasSuccess (run node : String) (b : Bool) :
    Calm fun w : World σ => w.db.hasSuccess run node = b :=
  fun _ _ h hw => (congrFun₂ h.hasSuccess_eq run node).trans hw

theorem nextAttempt (run node : String) (number : Int) :
    Calm fun w : World σ => w.db.nextAttempt run node = number :=
  fun _ _ h hw => (congrFun₂ h.nextAttempt_eq run node).trans hw

end Calm

namespace Engine

variable {env : Environment σ} {G : String → Graph → Prop} {scope : Scope}
  {A X : World σ → Prop}

/-! ## Computations without writes -/

/-- A computation that makes steps, and keeps every calm assertion whether it fails or not. -/
def Keeps (env : Environment σ) (G : String → Graph → Prop) (scope : Scope) (x : Engine σ α) :
    Prop :=
  ∀ A, Calm A → Stays (Step env G scope) A x

theorem keeps_iff {x : Engine σ α} : Keeps env G scope x ↔
    ∀ A, Calm A → ∀ w, A w → Path (Step env G scope) w (x.run w).2 ∧ A (x.run w).2 :=
  forall₂_congr fun _ _ => stays_iff

namespace Keeps

variable {x : Engine σ α} {f : α → Engine σ β}

theorem pure (a : α) : Keeps env G scope (Pure.pure a : Engine σ α) := fun _ _ => Stays.pure a

theorem throw (e : Failure) : Keeps env G scope (throw e : Engine σ α) := fun _ _ => Stays.throw e

theorem ofExcept (r : Except Failure α) : Keeps env G scope (Engine.ofExcept r) :=
  fun _ _ => Stays.ofExcept r

theorem bind (hx : Keeps env G scope x) (hf : ∀ a, Keeps env G scope (f a)) :
    Keeps env G scope (x >>= f) :=
  fun A hA => Stays.bind (hx A hA) fun a => hf a A hA

theorem attempt (hx : Keeps env G scope x) : Keeps env G scope (Engine.attempt x) :=
  fun A hA => Stays.attempt (hx A hA)

/-- A walk keeps what is calm through a computation that does. -/
theorem walk {A : Progress → World σ → Prop} {X : Halt → Progress → World σ → Prop}
    (hx : Keeps env G scope x) (hA : ∀ p, Calm (A p)) (hX : ∀ f p w, A p w → X (.failed f) p w) :
    Walk.Leads (Step env G scope) A (Walk.engine x) (fun _ => A) X :=
  .engine (fun p => hx _ (hA p)) hX

end Keeps

/-! ## Calls without writes -/

/-- A computation that never fails and makes one step, keeping what others do not disturb. -/
theorem leads_of_quiet {x : Engine σ α} {after : World σ → World σ} (hA : Calm A)
    (hrun : ∀ w, ∃ a, x.run w = (.ok a, after w))
    (hstep : ∀ w, A w → Step env G scope w (after w))
    (hquiet : ∀ w : World σ, w.db.Concedes (after w).db) :
    Leads (Step env G scope) A x (fun _ => A) X := by
  intro w hw
  obtain ⟨a, ha⟩ := hrun w
  rw [ha]
  exact ⟨.single (hstep w hw), hA w _ (hquiet w) hw⟩

theorem leads_now (hA : Calm A) : Leads (Step env G scope) A now (fun _ => A) X :=
  leads_of_quiet hA (fun _ => ⟨_, rfl⟩) (fun _ _ => .tick) fun _ => .refl _

theorem leads_freshId (kind : IdKind) (hA : Calm A) :
    Leads (Step env G scope) A (freshId env kind) (fun _ => A) X :=
  leads_of_quiet hA (fun _ => ⟨_, rfl⟩) (fun _ _ => .name kind) fun _ => .refl _

theorem leads_draw (hA : Calm A) :
    Leads (Step env G scope) A (monadLift (draw env)) (fun _ => A) X :=
  leads_of_quiet hA (fun _ => ⟨_, rfl⟩) (fun _ _ => .draw) fun _ => .refl _

theorem leads_wait (delay : Double) (hA : Calm A) :
    Leads (Step env G scope) A (wait env delay) (fun _ => A) X :=
  leads_of_quiet hA (fun _ => ⟨_, rfl⟩) (fun _ _ => .wait delay)
    fun w => w.concedes_waited env delay

theorem keeps_now : Keeps env G scope now := fun _ hA => leads_now hA

theorem keeps_freshId (kind : IdKind) : Keeps env G scope (freshId env kind) :=
  fun _ hA => leads_freshId kind hA

theorem keeps_draw : Keeps env G scope (monadLift (draw env)) := fun _ hA => leads_draw hA

theorem keeps_wait (delay : Double) : Keeps env G scope (wait env delay) :=
  fun _ hA => leads_wait delay hA

/-- A service may be called with something to send only where it was not sent yet. -/
theorem leads_ask (call : ServiceCall) (hA : Calm A) (unsent : ∀ w, A w → w.db.Unsent G call) :
    Leads (Step env G scope) A (ask env call) (fun _ => A) X := by
  refine leads_of_quiet hA (fun _ => ⟨_, rfl⟩) (fun w hw => .serve call (unsent w hw)) ?_
  exact fun w => w.concedes_served env call

theorem leads_demand (call : ServiceCall) (hA : Calm A)
    (unsent : ∀ w, A w → w.db.Unsent G call) :
    Leads (Step env G scope) A (demand env call) (fun _ => A) A := by
  refine .bind (leads_ask call hA unsent) fun answer => ?_
  cases answer with
  | value a => exact .pure a fun _ hw => hw
  | failure f => exact .throw f fun _ hw => hw
  | silence => exact .throw _ fun _ hw => hw

theorem keeps_demand {call : ServiceCall} (h : call.key? = none) :
    Keeps env G scope (demand env call) :=
  fun _ hA => leads_demand call hA fun _ _ key hkey => by simp [h] at hkey

theorem leads_remember {id : String} {g : Graph} (hA : Calm A) (known : G id g) :
    Leads (Step env G scope) A (remember id g) (fun _ => A) X := by
  intro w hw
  have hrun : (remember id g).run w = (.ok (), if (cached? id w.graphs).isSome then w
      else { w with graphs := w.graphs ++ [(id, g)] }) := rfl
  rw [hrun]
  split
  · exact ⟨.refl, hw⟩
  · exact ⟨.single (.remember id g known), hA w _ (.refl _) hw⟩

/-! ## Calls to the database -/

theorem run_interrupt (env : Environment σ) (call : StorageCall) (w : World σ) :
    (interrupt env call).run w = match (env.host.storage call w.db w.host).1.failure with
      | some f => (.error f, w.interrupted env call)
      | none => (.ok (), w.interrupted env call) := by
  have hrun : (interrupt env call).run w =
      (match (env.host.storage call w.db w.host).1.failure with
        | some f => (MonadExcept.throw f : Engine σ Unit)
        | none => Pure.pure ()).run (w.interrupted env call) := rfl
  rw [hrun]
  split <;> rfl

theorem calm_interrupted (env : Environment σ) (call : StorageCall) (hA : Calm A) {w : World σ}
    (hw : A w) : A (w.interrupted env call) :=
  hA w _ (w.concedes_interrupted env call) hw

/-- A call to the database that changes nothing itself. -/
theorem leads_interrupt (call : StorageCall) (hA : Calm A) :
    Leads (Step env G scope) A (interrupt env call) (fun _ => A)
      fun w => A w ∧ ¬env.host.Sure call := by
  intro w hw
  rw [run_interrupt]
  split
  · rename_i f hf
    refine ⟨.single (.interrupt call), calm_interrupted env call hA hw, fun sure => ?_⟩
    simp [sure w.db w.host] at hf
  · exact ⟨.single (.interrupt call), calm_interrupted env call hA hw⟩

theorem leads_look (call : StorageCall) (query : Database → α) (hA : Calm A) :
    Leads (Step env G scope) A (look env call query) (fun a w => A w ∧ a = query w.db)
      fun w => A w ∧ ¬env.host.Sure call :=
  .bind (leads_interrupt call hA) fun _ _ hw => ⟨.refl, hw, rfl⟩

theorem keeps_look (call : StorageCall) (query : Database → α) :
    Keeps env G scope (look env call query) :=
  fun _ hA => (leads_look call query hA).conseq (fun _ hw => hw)
    (fun _ _ hw => hw.1) fun _ hw => hw.1

/-- What follows on a call to the database happens after what the host does. -/
theorem run_interrupt_bind (call : StorageCall) (f : Unit → Engine σ α) (w : World σ) :
    (interrupt env call >>= f).run w = match (env.host.storage call w.db w.host).1.failure with
      | some e => (.error e, w.interrupted env call)
      | none => (f ()).run (w.interrupted env call) := by
  rw [run_bind, run_interrupt]
  rcases (env.host.storage call w.db w.host).1.failure with _ | e <;> rfl

/-- A call to the database that reads. -/
theorem run_look (call : StorageCall) (query : Database → α) (w : World σ) :
    (look env call query).run w = match (env.host.storage call w.db w.host).1.failure with
      | some e => (.error e, w.interrupted env call)
      | none => (.ok (query (w.interrupted env call).db), w.interrupted env call) := by
  rw [look, run_interrupt_bind]
  rcases (env.host.storage call w.db w.host).1.failure with _ | e <;> rfl

/-- A call to the database with a change. -/
theorem run_stored (call : StorageCall) (change : Instant → Database → α × Database) (w : World σ) :
    (stored env call change).run w = match (env.host.storage call w.db w.host).1.failure with
      | some e => (.error e, w.interrupted env call)
      | none => (.ok (change ((w.interrupted env call).clock.later 1) (w.interrupted env call).db).1,
        { w.interrupted env call with
          clock := (w.interrupted env call).clock.later 1
          db := (change ((w.interrupted env call).clock.later 1)
            (w.interrupted env call).db).2 }) := by
  rw [stored, run_interrupt_bind]
  rcases (env.host.storage call w.db w.host).1.failure with _ | e <;> rfl

/-- A command to the table of runs, which may go by what the clock was when it was sent. -/
theorem leads_stored {B : α → World σ → Prop} {change : Instant → Database → α × Database}
    {T : Instant → Prop} (call : StorageCall) (c : RunCommand) (old : c.isCreate = false)
    (hA : Calm A) (hchange : ∀ time db, (change time db).2 = c.perform time db)
    (allowed : ∀ w, A w → c.Allowed G scope w.db)
    (timely : ∀ time, T time → ∀ w, A w → c.Timely G time w.db)
    (hB : ∀ w, A w → B (change (w.clock.later 1) w.db).1 (w.commanded c)) :
    Leads (Step env G scope) (fun w => A w ∧ T w.clock) (stored env call change) B
      fun w => A w ∧ ¬env.host.Sure call := by
  rintro w ⟨hw, htime⟩
  have hw' := calm_interrupted env call hA hw
  rw [stored, run_interrupt_bind]
  split
  · rename_i f hf
    refine ⟨.single (.interrupt call), hw', fun sure => ?_⟩
    simp [sure w.db w.host] at hf
  · have hafter : (w.interrupted env call).commanded c =
        { w.interrupted env call with
          clock := (w.interrupted env call).clock.later 1
          db := (change ((w.interrupted env call).clock.later 1)
            (w.interrupted env call).db).2 } := by
      rw [hchange, World.commanded]
    have hB' := hB _ hw'
    have hstep : Step env G scope w ((w.interrupted env call).commanded c) :=
      .command call c old (allowed _ hw') (timely _ htime _ hw')
    rw [hafter] at hB' hstep
    exact ⟨.single hstep, hB'⟩

theorem run_commit (change : Instant → Database → Except Failure (α × Database)) (w : World σ) :
    (commit change).run w = match change (w.clock.later 1) w.db with
      | .ok (a, db) => (.ok a, { w with clock := w.clock.later 1, db := db })
      | .error e => (.error e, { w with clock := w.clock.later 1 }) := by
  have hrun : (commit change).run w =
      (ofExcept (change (w.clock.later 1) w.db) >>= fun p => do
        set { w with clock := w.clock.later 1, db := p.2 }
        return p.1).run { w with clock := w.clock.later 1 } := rfl
  rw [hrun]
  rcases change (w.clock.later 1) w.db with e | ⟨a, db⟩ <;> rfl

/-- A record that is not refused stands after the others. -/
theorem eq_of_record_eq_ok {r o : NodeRecord} {db db' : Database}
    (h : Database.record r db = .ok (o, db')) :
    o = r ∧ db' = { db with records := db.records ++ [r] } := by
  simp only [Database.record] at h
  split at h
  · cases h
  · split at h
    · cases h
    · cases h
      exact ⟨rfl, rfl⟩

/-- An attempt is recorded, unless the database refuses the record. -/
theorem leads_record {B : NodeRecord → World σ → Prop} (r : NodeRecord) (hA : Calm A)
    (admitted : ∀ w, A w → w.db.Admits G r)
    (hB : ∀ w time, A w → B { r with executedAt := time }
      (w.recorded { r with executedAt := time })) :
    Leads (Step env G scope) A
      (record env r.run r.node r.nodeType r.attempt r.outcome r.error r.output) B A := by
  intro w hw
  have hw' := calm_interrupted env .record hA hw
  have htick : A { w.interrupted env .record with
      clock := (w.interrupted env .record).clock.later 1 } :=
    hA (w.interrupted env .record) _ (.refl _) hw'
  rw [record, run_interrupt_bind]
  split
  · exact ⟨.single (.interrupt .record), hw'⟩
  · rw [run_commit]
    split
    · rename_i hc
      obtain ⟨rfl, rfl⟩ := eq_of_record_eq_ok hc
      exact ⟨.single (.record { r with executedAt := (w.interrupted env .record).clock.later 1 }
        (admitted _ hw')), hB _ _ hw'⟩
    · exact ⟨.tail (.single (.interrupt .record)) .tick, htick⟩

/-- A number is bound as it is, unless no column holds it. -/
theorem leads_bound {S : World σ → World σ → Prop} {A X : World σ → Prop} {i : Int}
    (hX : ∀ w, A w → ¬Database.fitsColumn i → X w) :
    Leads S A (Engine.ofExcept (Database.bound i)) (fun j w => j = i ∧ A w) X := by
  intro w hw
  by_cases hi : Database.fitsColumn i
  · rw [show Database.bound i = .ok i by simp [Database.bound, hi]]
    exact ⟨.refl, rfl, hw⟩
  · rw [show Database.bound i = .error Database.columnOverflow by simp [Database.bound, hi]]
    exact ⟨.refl, hX w hw hi⟩

/-- A run can be begun: the database can be relied on, and a column holds the depth. -/
def CanBegin (env : Environment σ) (chainDepth : Int) : Prop :=
  env.host.Reliable ∧ Database.fitsColumn chainDepth

/-- A run is created unless its slot is taken; this fails only where runs cannot be begun. -/
theorem leads_createRun {B : Option Run → World σ → Prop} (d : Definition)
    (contact node : String) (event : Value) (chainDepth : Int) (hA : Calm A)
    (allowed : ∀ w, A w → d ∈ w.db.definitions ∧
      ∃ g trigger, G d.id g ∧ g.trigger? = some trigger ∧ node = trigger.id)
    (hB : ∀ (w : World σ) id, A w → (∃ s, id = (env.host.freshId .run w.db s).1) →
      B (Database.createRun (w.clock.later 1) id d contact node event chainDepth w.db).1
        (w.commanded (.create id d contact node event chainDepth))) :
    Leads (Step env G scope) A (createRun env d contact node event chainDepth) B
      fun w => A w ∧ ¬CanBegin env chainDepth := by
  refine .bind ((leads_interrupt .create hA).fails
    fun _ hw => ⟨hw.1, fun can => hw.2 (can.1.sure _)⟩) fun _ => ?_
  refine .bind (leads_bound fun _ hw hfits => ⟨hw, fun can => hfits can.2⟩) ?_
  rintro depth w ⟨rfl, hw⟩
  have hnamed : A (w.named env .run) := hA w _ (.refl _) hw
  exact ⟨.single (.create d contact node event depth (allowed w hw)), hB _ _ hnamed ⟨_, rfl⟩⟩

end Engine

end CrmAutomation
