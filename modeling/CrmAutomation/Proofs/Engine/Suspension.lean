import CrmAutomation.Proofs.Engine.Delays
import CrmAutomation.Proofs.Engine.Termination
import CrmAutomation.Proofs.Graph.Publishable

/-!
# Suspension

A delay that is come to suspends its run until so many minutes after the clock was read, if that is
before the end of year 9999. If it is not, the date cannot be reckoned and the run fails; and a
graph may be published whose delays are as long as that, as only their least length is checked
(`Engine.delay_suspends_in_range`). All this is told of a walk from wherever it has come to the
delay, in an undisturbed database: no call to it fails, and the host spares the run. What holds of
the row of the run (`Showing`) is then left alone by everything but the writes of the walk itself.
-/

namespace CrmAutomation

/-! ## Dates -/

namespace Instant

variable {t : Instant} {minutes : Int}

theorem days_eq (minutes : Int) : minutes.fdiv (1440 : Nat) = minutes / 1440 :=
  Int.fdiv_eq_ediv_of_nonneg minutes (by decide)

theorem addMinutes_eq (h : 0 ≤ minutes) (hdays : minutes / 1440 ≤ maxDurationDays) :
    t.addMinutes minutes = if t.afterMinutes minutes < limit then
      .ok ⟨(t.afterMinutes minutes).toNat⟩
    else .error (.system .overflow "date value out of range") := by
  have hunit : (microsPerDay / 1440 : Nat) = microsPerMinute := by decide
  have hmax : maxDurationDays = 999999999 := rfl
  have hsum : (t.micros : Int) + minutes * microsPerMinute = t.afterMinutes minutes := rfl
  have hpos : 0 ≤ t.afterMinutes minutes := by
    have hnonneg : 0 ≤ minutes * microsPerMinute := Int.mul_nonneg h (Int.natCast_nonneg _)
    omega
  simp only [addMinutes, addUnits, hunit, days_eq]
  rw [if_neg (by omega), if_neg (by omega), hsum]
  simp only [hpos, true_and]

/-- The end of a delay in the years up to 9999 is reckoned. -/
theorem addMinutes_of_lt (h : 0 ≤ minutes) (hlt : t.afterMinutes minutes < limit) :
    t.addMinutes minutes = .ok ⟨(t.afterMinutes minutes).toNat⟩ := by
  have hshort : minutes * microsPerMinute < limit := by
    rw [afterMinutes] at hlt
    omega
  have hdays : minutes / 1440 ≤ maxDurationDays := by
    have hlimit : (limit : Int) = 5258964960 * microsPerMinute := by decide
    have hmax : maxDurationDays = 999999999 := rfl
    have hminutes : minutes < 5258964960 :=
      Int.lt_of_mul_lt_mul_right (hlimit ▸ hshort) (Int.natCast_nonneg _)
    omega
  rw [addMinutes_eq h hdays, if_pos hlt]

/-- The end of a longer one is not. -/
theorem addMinutes_of_le (h : 0 ≤ minutes) (hle : limit ≤ t.afterMinutes minutes) :
    ∃ message, t.addMinutes minutes = .error (.system .overflow message) := by
  by_cases hdays : minutes / 1440 ≤ maxDurationDays
  · rw [addMinutes_eq h hdays, if_neg (by omega)]
    exact ⟨_, rfl⟩
  · simp only [addMinutes, addUnits, days_eq]
    split
    · exact ⟨_, rfl⟩
    · rw [if_pos (by omega)]
      exact ⟨_, rfl⟩

end Instant

variable {σ : Type} {env : Environment σ} {A B : World σ → Prop} {r : Run} {t : Instant}

/-! ## Undisturbed rows -/

/-- The row stands in a table whose ids are distinct, and the time has come. -/
structure Showing (r : Run) (t : Instant) (w : World σ) : Prop where
  distinct : Distinct w
  row : r ∈ w.db.runs
  come : t.micros ≤ w.clock.micros

/-- An assertion that the host leaves alone when it interferes with calls to the database. -/
def Unmoved (env : Environment σ) (A : World σ → Prop) : Prop :=
  ∀ call w, A w → A (w.interrupted env call)

theorem Calm.unmoved (hA : Calm A) : Unmoved env A :=
  fun call w => hA w _ (w.concedes_interrupted env call)

theorem Unmoved.and (hA : Unmoved env A) (hB : Unmoved env B) :
    Unmoved env fun w => A w ∧ B w :=
  fun call w hw => ⟨hA call w hw.1, hB call w hw.2⟩

theorem Database.mem_cancelAll {time : Instant} {ids : List String} {db : Database}
    (hr : r ∈ db.runs) (hids : r.id ∉ ids) : r ∈ (Engine.cancelAll time ids db).runs := by
  induction ids generalizing db with
  | nil => exact hr
  | cons id ids ih =>
    simp only [List.mem_cons, not_or] at hids
    exact ih (List.mem_map.2 ⟨r, hr, by simp [hids.1]⟩) hids.2

namespace Showing

theorem congr {w w' : World σ} (hruns : w'.db.runs = w.db.runs)
    (hclock : w.clock.micros ≤ w'.clock.micros) (hw : Showing r t w) : Showing r t w' :=
  ⟨by rw [Distinct, hruns]; exact hw.distinct, hruns ▸ hw.row, hw.come.trans hclock⟩

theorem unmoved (spares : env.host.Spares r.id) : Unmoved env (Showing r t) := by
  intro call w hw
  refine ⟨?_, Database.mem_cancelAll hw.row (spares.storage call w.db w.host),
    hw.come.trans ?_⟩
  · rw [Distinct, (w.concedes_interrupted env call).ids_eq]
    exact hw.distinct
  · change w.clock.micros ≤ (w.clock.later 1).micros
    rw [Instant.micros_later_one]
    exact Nat.le_succ _

/-- A guarded write changes the row if it is running. -/
theorem updateRun (change : Run → Run) {db : Database} (hids : (db.runs.map (·.id)).Nodup)
    (hr : r ∈ db.runs) :
    (db.updateRun r.id Database.isRunning change).1 = Database.isRunning r ∧
      (if Database.isRunning r then change r else r) ∈
        (db.updateRun r.id Database.isRunning change).2.runs := by
  constructor
  · rw [Bool.eq_iff_iff, Database.updateRun, List.any_eq_true]
    constructor
    · rintro ⟨o, ho, htarget⟩
      simp only [Bool.and_eq_true, beq_iff_eq] at htarget
      rw [← List.inj_on_of_nodup_map hids ho hr htarget.1]
      exact htarget.2
    · intro hrunning
      exact ⟨r, hr, by simp [hrunning]⟩
  · exact List.mem_map.2 ⟨r, hr, by simp⟩

end Showing

namespace Engine

variable {α : Type}

theorem leads_look_unmoved (reliable : env.host.Reliable) (hA : Unmoved env A)
    (call : StorageCall) (query : Database → α) :
    Leads Any A (look env call query) (fun a w => A w ∧ a = query w.db) fun _ => False := by
  intro w hw
  rw [run_look, reliable]
  exact ⟨.single trivial, hA call w hw, rfl⟩

theorem leads_updateRun (reliable : env.host.Reliable) (spares : env.host.Spares r.id)
    (call : StorageCall) (change : Instant → Run → Run)
    (hids : ∀ time o, (change time o).id = o.id) :
    Leads Any (Showing r t)
      (stored env call fun time => Database.updateRun r.id Database.isRunning (change time))
      (fun done w => done = Database.isRunning r ∧
        ∃ time, Showing (if Database.isRunning r then change time r else r) t w)
      fun _ => False := by
  intro w hw
  rw [run_stored, reliable]
  have hw' := Showing.unmoved spares call w hw
  obtain ⟨hdone, hrow⟩ :=
    Showing.updateRun (change ((w.interrupted env call).clock.later 1)) hw'.distinct hw'.row
  refine ⟨.single trivial, hdone, _, ?_, hrow, hw'.come.trans ?_⟩
  · rw [Distinct]
    dsimp only
    rw [Database.ids_updateRun (hids _)]
    exact hw'.distinct
  · dsimp only
    rw [Instant.micros_later_one]
    exact Nat.le_succ _

/-- A record changes no run, whether the database takes it or not. -/
theorem leads_record_showing (reliable : env.host.Reliable) (hA : Unmoved env A)
    (hcongr : ∀ w w' : World σ, w'.db.runs = w.db.runs → w.clock.micros ≤ w'.clock.micros →
      A w → A w') (run node nodeType : String) (attempt : Int) (outcome : NodeOutcome)
    (error : Option String) (output : Option Value) :
    Leads Any A (record env run node nodeType attempt outcome error output) (fun _ => A) A := by
  intro w hw
  have hw' := hA .record w hw
  have later : ∀ db : Database, db.runs = (w.interrupted env .record).db.runs →
      A { w.interrupted env .record with
        clock := (w.interrupted env .record).clock.later 1, db := db } := fun db hdb =>
    hcongr _ _ hdb (by rw [Instant.micros_later_one]; exact Nat.le_succ _) hw'
  rw [record, run_interrupt_bind, reliable]
  dsimp only
  rw [run_commit]
  split
  · rename_i hc
    obtain ⟨-, rfl⟩ := eq_of_record_eq_ok hc
    exact ⟨.single trivial, later _ rfl⟩
  · exact ⟨.single trivial, later _ rfl⟩

/-! ## The walk of a run on a delay -/

/-- A run as it is suspended on a node. -/
def asleep (node : String) (due : Instant) (time : Instant) (r : Run) : Run :=
  { r with node := node, state := .suspended, resumeAt := some due, updatedAt := time }

/-- The run rests on the node until the delay is over that began when the clock was read, after
`since`. -/
def Sleeps (r : Run) (node : String) (minutes : Int) (since : Instant) (w : World σ) : Prop :=
  ∃ t due time, since.micros < t.micros ∧ t.addMinutes minutes = .ok due ∧
    Showing (asleep node due time r) t w

/-- The run is as it was, since the end of the delay could not be reckoned. -/
def Strays (r : Run) (minutes : Int) (since : Instant) (f : Failure) (w : World σ) : Prop :=
  ∃ t, since.micros < t.micros ∧ t.addMinutes minutes = .error f ∧ Showing r t w

variable {run : Run} {node : Node} {g : Graph} {minutes : Int} {since : Instant}

theorem Sleeps.unmoved {id : String} (spares : env.host.Spares r.id) :
    Unmoved env (Sleeps r id minutes since) := by
  rintro call w ⟨t, due, time, hsince, hdue, hw⟩
  exact ⟨t, due, time, hsince, hdue, Showing.unmoved (by exact spares) call w hw⟩

/-- A delay is come to: the run is running, and the walk is on the node. -/
def Arrives (r : Run) (node : Node) (since : Instant) (p : Progress) (w : World σ) : Prop :=
  Showing r since w ∧ w.db.hasSuccess r.id node.id = false ∧ p.node = node.id ∧ p.resuming = false

theorem Arrives.unmoved (spares : env.host.Spares r.id) (p : Progress) :
    Unmoved env (Arrives r node since p) :=
  (Showing.unmoved spares).and ((Calm.hasSuccess _ _ _).unmoved.and (Calm.const _).unmoved)

/-- How a walk ends early on a delay. -/
def Halted (r : Run) (node : Node) (minutes : Int) (since : Instant) (h : Halt) (p : Progress)
    (w : World σ) : Prop :=
  p.node = node.id ∧ ∃ f, h = .failed f ∧
    (Sleeps r node.id minutes since w ∨ Strays r minutes since f w)

/-- A running row is suspended until the end of the delay. -/
theorem leads_suspend (reliable : env.host.Reliable) (spares : env.host.Spares r.id)
    (hrunning : r.state = .running) {due : Instant} (hsince : since.micros < t.micros)
    (hdue : t.addMinutes minutes = .ok due) (id : String) :
    Leads Any (Showing r t) (stored env .suspend fun time => Database.suspend time r.id id due)
      (fun done w => done = true ∧ Sleeps r id minutes since w) fun _ => False := by
  have guard : Database.isRunning r = true := by simp [Database.isRunning, hrunning]
  have suspends : Leads Any (Showing r t)
      (stored env .suspend fun time => Database.suspend time r.id id due) _ _ :=
    leads_updateRun reliable spares .suspend (asleep id due) fun _ _ => rfl
  refine suspends.post fun done w hw => ?_
  obtain ⟨hdone, time, hw⟩ := hw
  rw [guard, if_pos rfl] at hw
  exact ⟨hdone.trans guard, t, due, time, hsince, hdue, hw⟩

theorem leads_suspension (reliable : env.host.Reliable) (spares : env.host.Spares run.id)
    (hr : r.id = run.id) (hrunning : r.state = .running) :
    Walk.Leads Any (fun p w => Showing r since w ∧ p.node = node.id)
      (executeDelay env run node minutes)
      (fun _ p w => Sleeps r node.id minutes since w ∧ p.outcome.state = some .suspended)
      (Halted r node minutes since) := by
  rw [← hr] at spares
  unfold executeDelay
  rw [← hr]
  -- The clock is read; the row stays as it is.
  refine .bind (B := fun time p w => (Showing r time w ∧ since.micros < time.micros) ∧
    p.node = node.id) (.engine (E := fun _ _ => False) (fun p w hw => ?_) fun _ _ _ hw => hw.elim)
    fun time => ?_
  · refine ⟨.single trivial, ⟨⟨hw.1.distinct, hw.1.row, Nat.le_refl _⟩, ?_⟩, hw.2⟩
    have := hw.1.come
    change since.micros < (w.clock.later 1).micros
    rw [Instant.micros_later_one]
    omega
  cases hdue : time.addMinutes minutes with
  | error f =>
    intro p w hw
    exact ⟨.refl, hw.2, f, rfl, Or.inr ⟨time, hw.1.2, hdue, hw.1.1⟩⟩
  | ok due =>
    have slept : ∀ p : Progress, Unmoved env fun w : World σ =>
        Sleeps r node.id minutes since w ∧ p.node = node.id := fun p =>
      (Sleeps.unmoved spares).and (Calm.const _).unmoved
    have halts : ∀ (f : Failure) (p : Progress) (w : World σ),
        Sleeps r node.id minutes since w ∧ p.node = node.id →
        Halted r node minutes since (.failed f) p w :=
      fun f p w hw => ⟨hw.2, f, rfl, Or.inl hw.1⟩
    refine .bind (B := fun resumeAt p w => due = resumeAt ∧
      (Showing r time w ∧ since.micros < time.micros) ∧ p.node = node.id)
      (fun p w hw => ⟨.refl, rfl, hw⟩) fun resumeAt => .assume (fun p w hw => hw.1) ?_
    rintro rfl
    refine .bind (B := fun done p w => done = true ∧ Sleeps r node.id minutes since w ∧
      p.node = node.id) (.engine (E := fun _ _ => False) (fun p => ?_) fun _ _ _ hw => hw.elim)
      fun done => ?_
    · refine .assume (fun w hw => And.intro hw.2.1.2 hw.2.2) fun h => ?_
      exact (leads_suspend reliable spares hrunning h.1 hdue node.id).conseq
        (fun w hw => hw.2.1.1) (fun done w hw => ⟨hw.1, hw.2, h.2⟩) fun _ hw => hw
    refine .assume (fun p w hw => hw.1) ?_
    rintro rfl
    rw [if_pos rfl]
    refine .bind (B := fun _ p w => Sleeps r node.id minutes since w ∧ p.node = node.id)
      (.engine (fun p => ((leads_look_unmoved reliable (slept p) _ _).conseq (fun w hw => hw.2)
        (fun _ _ hw => hw.1) fun _ hw => hw)) fun _ _ _ hw => hw.elim) fun number => ?_
    refine .bind (B := fun _ p w => Sleeps r node.id minutes since w ∧ p.node = node.id)
      (.engine (fun p => leads_record_showing reliable (slept p) (fun w w' hruns hclock hw => ?_)
        _ _ _ _ _ _ _) halts) fun _ => ?_
    · obtain ⟨⟨t, due, resumed, hsince, hdue, hw⟩, hnode⟩ := hw
      exact ⟨⟨t, due, resumed, hsince, hdue, hw.congr hruns hclock⟩, hnode⟩
    · exact .settle fun p w hw => ⟨hw.1, rfl⟩

/-- A delay that is not over is executed. -/
theorem leads_delayNode (reliable : env.host.Reliable) (spares : env.host.Spares run.id)
    (hr : r.id = run.id) (hrunning : r.state = .running) (hd : node.config = .delay minutes) :
    Walk.Leads Any (Arrives r node since) (executeNode env g run node false)
      (fun _ p w => Sleeps r node.id minutes since w ∧ p.outcome.state = some .suspended)
      (Halted r node minutes since) := by
  unfold executeNode
  simp only [hd, Bool.false_eq_true, if_false]
  refine .bind (B := fun isOver p w => isOver = false ∧ Arrives r node since p w)
    (.engine (E := fun _ _ => False) (fun p => ?_) fun _ _ _ hw => hw.elim) fun isOver => ?_
  · refine (leads_look_unmoved reliable (Arrives.unmoved (hr ▸ spares) p) _ _).post
      fun found w hw => ?_
    obtain ⟨harrives, rfl⟩ := hw
    exact ⟨hr ▸ harrives.2.1, harrives⟩
  · refine .assume (fun p w hw => hw.1) ?_
    rintro rfl
    simp only [Bool.false_eq_true, if_false]
    exact (leads_suspension reliable spares hr hrunning).pre fun p w hw => ⟨hw.2.1, hw.2.2.2.1⟩

theorem leads_walk_delay (reliable : env.host.Reliable) (spares : env.host.Spares run.id)
    (hr : r.id = run.id) (hrunning : r.state = .running) (hn : g.node? node.id = some node)
    (hd : node.config = .delay minutes) (left : Nat) :
    Walk.Leads Any (Arrives r node since) (walk env g run (left + 1))
      (fun _ p w => Sleeps r node.id minutes since w ∧ p.outcome.state = some .suspended)
      (Halted r node minutes since) := by
  unfold walk whileRunning
  refine .bind (B := fun state p w => state = some .running ∧ Arrives r node since p w)
    (.engine (E := fun _ _ => False) (fun p => ?_) fun _ _ _ hw => hw.elim) fun state => ?_
  · refine (leads_look_unmoved reliable (Arrives.unmoved (hr ▸ spares) p) _ _).post
      fun found w hw => ?_
    obtain ⟨harrives, rfl⟩ := hw
    rw [← hr, harrives.1.distinct.run?_eq_some harrives.1.row, ← hrunning]
    exact ⟨rfl, harrives⟩
  refine .assume (fun p w hw => hw.1) ?_
  rintro rfl
  rw [if_pos rfl]
  unfold takeStep
  refine .bind (B := fun _ => Arrives r node since) (.update fun p w hw => hw.2) fun _ => ?_
  refine .bind (B := fun q p w => Arrives r node since p w ∧ q.node = node.id ∧ q.resuming = false)
    (.progress fun p w hw => ⟨hw, hw.2.2⟩) fun q => ?_
  refine .assume (fun p w hw => hw.2) fun hq => ?_
  rw [hq.1, hn, hq.2]
  refine .bind ((leads_delayNode reliable spares hr hrunning hd).pre fun p w hw => hw.1) fun _ => ?_
  refine .bind (B := fun _ p w => Sleeps r node.id minutes since w ∧
    p.outcome.state = some .suspended) (.update fun p w hw => hw) fun _ => ?_
  refine .bind (B := fun q p w => (Sleeps r node.id minutes since w ∧
    p.outcome.state = some .suspended) ∧ q = p) (.progress fun p w hw => ⟨hw, rfl⟩) fun q => ?_
  refine .assume (q := q.outcome.state = some .suspended) (fun p w hw => hw.2 ▸ hw.1.2) fun hq => ?_
  rw [hq]
  exact .pure _ fun p w hw => hw.1

/-! ## The end of an advance -/

/-- What an advance makes of a walk. -/
def finish (env : Environment σ) (run : Run) (x : Walk σ Unit) (p : Progress) :
    Engine σ Outcome := fun w =>
  (conclude env run (x.run (p, w)).1 (x.run (p, w)).2.1).run (x.run (p, w)).2.2

theorem run_walkRun_eq_finish (resuming : Bool) (w : World σ) : (walkRun env resuming run).run w =
    (finish env run (walking env run) ⟨run.node, resuming, { run := run.id }⟩).run w :=
  rfl

/-- What has become of a run that came to a delay when the clock was read, after `since`. -/
def Concluded (r : Run) (node : Node) (minutes : Int) (since : Instant) (o : Outcome)
    (w : World σ) : Prop :=
  (o.state = some .suspended ∧ Sleeps r node.id minutes since w) ∨
    (o.state = some .failed ∧ ∃ t f time, since.micros < t.micros ∧
      t.addMinutes minutes = .error f ∧ Showing (Database.ended time .failed
        (some (Database.storedError (crashText node.id f))) r) t w)

theorem leads_failRun_of_showing (reliable : env.host.Reliable) (spares : env.host.Spares r.id)
    (error : String) (o : Outcome) :
    Leads Any (Showing r t) (failRun env r.id error o)
      (fun o' w => if Database.isRunning r then o'.state = some .failed ∧
          ∃ time, Showing (Database.ended time .failed (some (Database.storedError error)) r) t w
        else o'.state = some r.state ∧ Showing r t w)
      fun _ => False := by
  unfold failRun
  have fails : Leads Any (Showing r t)
      (stored env .fail fun time => Database.fail time r.id error) _ _ :=
    leads_updateRun reliable spares .fail
      (fun time => Database.ended time .failed (some (Database.storedError error))) fun _ _ => rfl
  refine .bind fails fun done => .assume (fun w hw => hw.1) ?_
  rintro rfl
  split
  · exact .pure _ fun w hw => ⟨rfl, hw.2⟩
  · refine .bind (B := fun state w => state = some r.state ∧ Showing r t w) ?_ fun state =>
      .pure _ fun w hw => hw
    refine (leads_look_unmoved reliable (Showing.unmoved (t := t) spares) _ _).conseq
      (fun w hw => ?_) (fun found w hw => ?_) fun _ hw => hw
    · obtain ⟨-, time, hw⟩ := hw
      exact hw
    · obtain ⟨hw, rfl⟩ := hw
      rw [hw.distinct.run?_eq_some hw.row]
      exact ⟨rfl, hw⟩

/-- What a walk leads to is concluded, however it ends. -/
theorem leads_finish {S : World σ → World σ → Prop} {A : Progress → World σ → Prop}
    {B : Unit → Progress → World σ → Prop} {X : Halt → Progress → World σ → Prop}
    {C : Outcome → World σ → Prop} {Y : World σ → Prop} {x : Walk σ Unit}
    (hx : Walk.Leads S A x B X) (hok : ∀ p, Leads S (B () p) (conclude env run (.ok ()) p) C Y)
    (herror : ∀ h p, Leads S (X h p) (conclude env run (.error h) p) C Y) (p : Progress) :
    Leads S (A p) (finish env run x p) C Y := by
  intro w hw
  obtain ⟨hpath, hend⟩ := hx p w hw
  have hrun : (finish env run x p).run w =
    (conclude env run (x.run (p, w)).1 (x.run (p, w)).2.1).run (x.run (p, w)).2.2 := rfl
  rw [hrun]
  rcases hxw : x.run (p, w) with ⟨h | _, p', w'⟩ <;> rw [hxw] at hpath hend
  · obtain ⟨hpath', hend'⟩ := herror h p' w' hend
    exact ⟨hpath.trans hpath', hend'⟩
  · obtain ⟨hpath', hend'⟩ := hok p' w' hend
    exact ⟨hpath.trans hpath', hend'⟩

/-- An outcome that tells the state is taken as it is. -/
theorem leads_known {S : World σ → World σ → Prop} {C : Outcome → World σ → Prop}
    {Y : World σ → Prop} {o : Outcome} (h : ∀ w, C o w → o.state.isSome) :
    Leads S (C o)
      (match o.state with
        | some _ => Pure.pure o
        | none => stateOf env run.id >>= fun state => Pure.pure { o with state := state }) C Y := by
  intro w hw
  obtain ⟨s, hs⟩ := Option.isSome_iff_exists.1 (h w hw)
  rw [hs]
  exact ⟨.refl, hw⟩

/-- An advance whose run comes to a delay ends with the run suspended, or failed if the end of the
delay cannot be reckoned. -/
theorem leads_finish_delay (reliable : env.host.Reliable) (spares : env.host.Spares run.id)
    (hr : r.id = run.id) (hrunning : r.state = .running) (hn : g.node? node.id = some node)
    (hd : node.config = .delay minutes) (left : Nat) (p : Progress) :
    Leads Any (Arrives r node since p) (finish env run (walk env g run (left + 1)) p)
      (Concluded r node minutes since) fun _ => False := by
  have told : ∀ (o : Outcome) (w : World σ), Concluded r node minutes since o w →
      o.state.isSome := by
    rintro o w (⟨hs, -⟩ | ⟨hs, -⟩) <;> rw [hs] <;> rfl
  refine leads_finish (leads_walk_delay reliable spares hr hrunning hn hd left) (fun p => ?_)
    (fun h p => ?_) p
  · exact .bind (.pure _ fun w hw => Or.inl ⟨hw.2, hw.1⟩) fun o => leads_known (told o)
  · rintro w ⟨hnode, f, rfl, hw⟩
    have fails : Leads Any (fun w => Sleeps r node.id minutes since w ∨ Strays r minutes since f w)
        (failRun env run.id (crashText p.node f) p.outcome) (Concluded r node minutes since)
        fun _ => False := by
      rw [← hr] at spares ⊢
      rintro w (⟨t, due, time, hsince, hdue, hw⟩ | ⟨t, hsince, hdue, hw⟩)
      · refine (leads_failRun_of_showing (r := asleep node.id due time r) reliable spares _ _).post
          (fun o w hw => ?_) w hw
        exact Or.inl ⟨hw.1, t, due, time, hsince, hdue, hw.2⟩
      · refine (leads_failRun_of_showing reliable spares _ _).post (fun o w hw => ?_) w hw
        rw [if_pos (by simp [Database.isRunning, hrunning]), hnode] at hw
        obtain ⟨hs, time, hw⟩ := hw
        exact Or.inr ⟨hs, t, f, time, hsince, hdue, hw⟩
    exact (Leads.bind fails fun o => leads_known (told o)) w hw

/-! ## Delays of published graphs -/

/-- A workflow that does nothing but wait. -/
def waiting (minutes : Int) : Value :=
  .obj [("nodes", .list [
      .obj [("id", .str "start"), ("type", .str "trigger"),
        ("data", .obj [("triggerType", .str "contact_created")])],
      .obj [("id", .str "wait"), ("type", .str "delay"),
        ("data", .obj [("config", .obj [("duration_minutes", .int minutes)])])]]),
    ("edges", .list [.obj [("source", .str "start"), ("target", .str "wait")]])]

/-- Its graph. -/
def waitingGraph (minutes : Int) : Graph :=
  ⟨[⟨"start", .trigger "contact_created" none none, ""⟩, ⟨"wait", .delay minutes, ""⟩],
    [⟨0, 1, .default⟩]⟩

/-- Nothing is wrong with it, however long it waits. -/
theorem checkStructure_waiting (h : 1 ≤ minutes) :
    checkStructure (waiting minutes) = ⟨[], some (waitingGraph minutes)⟩ := by
  have parsed : Graph.ofValue (waiting minutes) = .ok (waitingGraph minutes) := rfl
  have triggers : (waitingGraph minutes).triggerDefects = [] := rfl
  have reachability : (waitingGraph minutes).reachabilityDefects = [] := rfl
  have edges : (waitingGraph minutes).edgeDefects = [] := rfl
  have cycles : (waitingGraph minutes).cycleDefects = [] := rfl
  have settings : (waitingGraph minutes).configDefects = [] :=
    Graph.configDefects_eq_nil_iff.2 fun n hn => by
      simp only [waitingGraph, List.mem_cons, List.not_mem_nil, or_false] at hn
      rcases hn with rfl | rfl
      · exact ⟨.contactCreated, rfl⟩
      · exact h
  simp only [checkStructure, parsed, Graph.structuralDefects, triggers, reachability, edges, cycles,
    settings, List.append_nil]

/-- Of a graph in which nothing is wrong, a delay that an advance comes to suspends the run until so
many minutes after the clock was read, if these are before the end of year 9999, and fails it
else; and such graphs have delays of any length of a minute or more. -/
theorem delay_suspends_in_range {raw : Value} (accepted : checkStructure raw = ⟨[], some g⟩)
    (hnode : node ∈ g.nodes) (hdelay : node.config = .delay minutes)
    (reliable : env.host.Reliable) (spares : env.host.Spares run.id) (w : World σ)
    (distinct : (w.db.runs.map (·.id)).Nodup) (hr : r ∈ w.db.runs) (hid : r.id = run.id)
    (hrunning : r.state = .running) (fresh : w.db.hasSuccess run.id node.id = false)
    (p : Progress) (hp : p.node = node.id) (begins : p.resuming = false) (left : Nat) :
    (∃ (t : Instant) (o : Outcome) (w' : World σ) (r' : Run),
      (finish env run (walk env g run (left + 1)) p).run w = (.ok o, w') ∧
      w.clock.micros < t.micros ∧ t.micros ≤ w'.clock.micros ∧
      w'.db.run? run.id = some r' ∧ o.state = some r'.state ∧
      (t.afterMinutes minutes < Instant.limit → r'.state = .suspended ∧ r'.node = node.id ∧
        ∃ due, r'.resumeAt = some due ∧ (due.micros : Int) = t.afterMinutes minutes) ∧
      (Instant.limit ≤ t.afterMinutes minutes → r'.state = .failed ∧ r'.resumeAt = none ∧
        ∃ message, r'.error = some (Database.storedError
          ("Internal error on node " ++ node.id ++ ": "
            ++ (Failure.system .overflow message).text)))) ∧
    ∀ m : Int, 1 ≤ m ↔ ∃ raw g, checkStructure raw = ⟨[], some g⟩ ∧
      ∃ node ∈ g.nodes, node.config = .delay m := by
  have least : ∀ {raw : Value} {g : Graph}, checkStructure raw = ⟨[], some g⟩ →
      ∀ node ∈ g.nodes, ∀ m, node.config = .delay m → 1 ≤ m := by
    intro raw g accepted node hnode m hm
    have complete := (checkStructure_eq_iff.1 accepted).2.complete node hnode
    rwa [hm] at complete
  have hpos : 0 ≤ minutes := by
    have := least accepted node hnode minutes hdelay
    omega
  refine ⟨?_, fun m => ⟨fun h => ⟨_, _, checkStructure_waiting h, ⟨"wait", .delay m, ""⟩, ?_, rfl⟩,
    fun ⟨raw, g, hg, n, hn, hm⟩ => least hg n hn m hm⟩⟩
  case refine_2 => simp [waitingGraph]
  have wf := Graph.wellFormed_of_ofValue (checkStructure_eq_iff.1 accepted).1
  have hn : g.node? node.id = some node := Database.find?_key wf.distinct hnode
  have arrives : Arrives r node w.clock p w :=
    ⟨⟨distinct, hr, Nat.le_refl _⟩, hid ▸ fresh, hp, begins⟩
  obtain ⟨o, w', hrun, -, hend⟩ :=
    (leads_finish_delay reliable spares hid hrunning hn hdelay left p).exists_ok arrives
  obtain ⟨hs, t, due, time, hsince, hdue, hw⟩ | ⟨hs, t, f, time, hsince, hdue, hw⟩ := hend
  · have found := hw.distinct.run?_eq_some hw.row
    refine ⟨t, o, w', _, hrun, hsince, hw.come, hid ▸ found, hs,
      fun hlt => ⟨rfl, rfl, due, rfl, ?_⟩, fun hle => ?_⟩
    · exact Instant.micros_of_addMinutes hdue
    · obtain ⟨message, hm⟩ := Instant.addMinutes_of_le hpos hle
      rw [hdue] at hm
      cases hm
  · have found := hw.distinct.run?_eq_some hw.row
    refine ⟨t, o, w', _, hrun, hsince, hw.come, hid ▸ found, hs, fun hlt => ?_,
      fun hle => ⟨rfl, rfl, ?_⟩⟩
    · rw [Instant.addMinutes_of_lt hpos hlt] at hdue
      cases hdue
    · obtain ⟨message, hm⟩ := Instant.addMinutes_of_le hpos hle
      rw [hdue, Except.error.injEq] at hm
      exact ⟨message, by rw [hm]; rfl⟩

/-- A world with a run of a workflow that waits. -/
def attending (minutes : Int) : World Unit where
  db := { Database.begun with definitions :=
    [{ Database.welcome with graph := waiting minutes, status := .known .published }] }
  clock := ⟨9⟩
  graphs := []
  turns := []
  calls := []
  waits := []
  host := ()

/-- A delay of ten minutes suspends its run. -/
theorem delay_suspends_in_range_of_attending :
    let run : Run := Run.created ⟨5⟩ "run-1" Database.welcome "c-1" "start" .null 0
    let begins : Progress := ⟨"wait", false, { run := "run-1" }⟩
    checkStructure (waiting 10) = ⟨[], some (waitingGraph 10)⟩ ∧ undisturbed.host.Reliable ∧
    undisturbed.host.Spares run.id ∧ ((attending 10).db.runs.map (·.id)).Nodup ∧
    run ∈ (attending 10).db.runs ∧ run.state = .running ∧
    (attending 10).db.hasSuccess run.id "wait" = false ∧
    ∃ (t : Instant) (o : Outcome) (w' : World Unit) (r' : Run),
      (finish undisturbed run (walk undisturbed (waitingGraph 10) run 3) begins).run (attending 10)
        = (.ok o, w') ∧
      w'.db.run? "run-1" = some r' ∧ r'.state = .suspended ∧
      ∃ due, r'.resumeAt = some due ∧ (due.micros : Int) = t.afterMinutes 10 := by
  intro run begins
  have accepted : checkStructure (waiting 10) = ⟨[], some (waitingGraph 10)⟩ :=
    checkStructure_waiting (by decide)
  have held : ⟨"wait", .delay 10, ""⟩ ∈ (waitingGraph 10).nodes := by simp [waitingGraph]
  have reliable : undisturbed.host.Reliable := fun _ _ _ => rfl
  have spares : undisturbed.host.Spares run.id := by
    constructor <;> intros <;> exact List.not_mem_nil
  have distinct : ((attending 10).db.runs.map (·.id)).Nodup := by decide
  have stored : run ∈ (attending 10).db.runs := List.mem_singleton_self _
  have fresh : (attending 10).db.hasSuccess run.id "wait" = false := by decide
  obtain ⟨⟨t, o, w', r', hrun, -, hcome, hrow, -, hrange, -⟩, -⟩ :=
    delay_suspends_in_range accepted held rfl reliable spares (attending 10) distinct stored rfl rfl
      fresh begins rfl rfl 2
  have clock : ((finish undisturbed run (walk undisturbed (waitingGraph 10) run 3) begins).run
      (attending 10)).2.clock.micros < 100 := by decide +kernel
  rw [hrun] at clock
  change w'.clock.micros < 100 at clock
  have inRange : t.afterMinutes 10 < Instant.limit := by
    have hlimit : (700000000 : Int) < Instant.limit := by decide
    have hunit : (Instant.microsPerMinute : Int) = 60000000 := rfl
    rw [Instant.afterMinutes, hunit]
    omega
  obtain ⟨hstate, -, hdue⟩ := hrange inRange
  exact ⟨accepted, reliable, spares, distinct, stored, rfl, fresh, t, o, w', r', hrun, hrow, hstate,
    hdue⟩

/-- A delay that ends beyond the last year fails its run, although nothing is wrong with its
graph. -/
theorem delay_beyond_calendar :
    (checkStructure (waiting 1000000000000000)).isOk ∧ undisturbed.host.Reliable ∧
    undisturbed.host.Spares "run-1" ∧
    (((advance undisturbed "run-1").run (attending 1000000000000000)).2.db.run? "run-1").map
      (fun r => (r.state, r.node, r.resumeAt)) = some (.failed, "wait", none) := by
  refine ⟨by decide +kernel, fun _ _ _ => rfl, ?_, by decide +kernel⟩
  constructor <;> intros <;> exact List.not_mem_nil

end Engine

end CrmAutomation
