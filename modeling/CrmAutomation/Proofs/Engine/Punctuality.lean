import CrmAutomation.Proofs.Engine.Delays
import CrmAutomation.Proofs.Store.Claims

/-!
# Delays are kept

A sweep resumes the runs that are due, one after the other. Between the moment at which a run was
listed and the one at which it is claimed others may write to it, but a claim that is won finds the
row as it was listed (`Run.Later`), so the delay that it is on is over (`Claim.Due`), and the run
may leave it. A run that cannot be resumed is given back. It is on the same delay then, or not
running any more, provided that runs which cannot go on can at least be failed (`Host.Sure`): so its
delay is over, too, and it does no harm that the run is due at once (`leads_handleClaim`).

Hence no delay is cut short in any history in which the clock does not go back and nobody resumes a
run by hand (`performAll_punctual`). Where a run that has moved on can neither go on nor be failed,
it is given back on a delay that has only begun (`delay_cut_short`).
-/

namespace CrmAutomation

variable {σ : Type} {G : String → Graph → Prop} {scope : Scope} {d d' : Database}

/-! ## Rows that are due -/

theorem Run.Conceded.later {r r' : Run} (h : r.Conceded r') : r.Later r' := by
  rcases h with rfl | ⟨hactive, time, rfl⟩
  · exact .refl _
  · have hcancel : r.Write time (Database.ended time .cancelled r.error r) := .cancel hactive
    exact hcancel.later

/-- What a step makes of a row is the row later on. -/
theorem Database.Effect.exists_later (h : d.Effect G scope d') {r : Run} (hr : r ∈ d.runs) :
    ∃ r' ∈ d'.runs, r.Later r' := by
  cases h with
  | concede conceded =>
    obtain ⟨r', hr', hc⟩ := conceded.exists_after hr
    exact ⟨r', hr', hc.later⟩
  | command conceded now c _ =>
    obtain ⟨r₁, hr₁, hc⟩ := conceded.exists_after hr
    obtain ⟨r', hr', rfl | hw⟩ := c.exists_perform now hr₁
    · exact ⟨r', hr', hc.later⟩
    · exact ⟨r', hr', hc.later.trans hw.later⟩
  | record conceded o _ =>
    obtain ⟨r', hr', hc⟩ := conceded.exists_after hr
    exact ⟨r', hr', hc.later⟩

/-- The run was suspended and due at the time when the claim was listed. -/
def Claim.Due (time : Instant) (db : Database) (c : Claim) : Prop :=
  ∃ (o : Run) (t : Instant), o.id = c.run ∧ o.lock = c.lock ∧ o.state = .suspended ∧
    o.resumeAt = some t ∧ t.micros ≤ time.micros ∧ ∃ r ∈ db.runs, o.Later r

namespace Claim.Due

variable {time : Instant} {c : Claim}

theorem of_effect (h : d.Effect G scope d') (hc : c.Due time d) : c.Due time d' := by
  obtain ⟨o, t, hid, hlock, hrested, hresume, htime, r, hr, hlater⟩ := hc
  obtain ⟨r', hr', hlater'⟩ := h.exists_later hr
  exact ⟨o, t, hid, hlock, hrested, hresume, htime, r', hr', hlater.trans hlater'⟩

theorem of_mem_dueRuns (distinct : (d.runs.map (·.id)).Nodup) {limit : Int}
    (h : c ∈ d.dueRuns time limit) : c.Due time d := by
  obtain ⟨r, t, hrow, hlock, hrested, hresume, htime⟩ := Database.run?_of_mem_dueRuns distinct h
  obtain ⟨hr, hid⟩ := (Database.run?_eq_some_iff distinct).1 hrow
  exact ⟨r, t, hid, hlock, hrested, hresume, by simpa [Instant.notAfter] using htime, r, hr,
    .refl r⟩

/-- A row that a claim would take is due. -/
theorem exists_resumeAt (distinct : (d.runs.map (·.id)).Nodup) (hc : c.Due time d) {r : Run}
    (hr : r ∈ d.runs) (hid : r.id = c.run) (hrested : r.state = .suspended)
    (hlock : r.lock = c.lock) : ∃ t, r.resumeAt = some t ∧ t.micros ≤ time.micros := by
  obtain ⟨o, t, hoid, holock, horested, hresume, htime, r', hr', hlater⟩ := hc
  obtain rfl := List.inj_on_of_nodup_map distinct hr' hr (hlater.id_eq.trans (hoid.trans hid.symm))
  rcases hlater.eq_of_rested horested (hlock.trans holock.symm) with rfl | ended
  · exact ⟨t, hresume, htime⟩
  · exact absurd ended (Run.Later.not_isTerminal (by rw [hrested]; rfl))

end Claim.Due

/-! ## Claims -/

namespace Engine

variable {env : Environment σ} {ds : List Definition} {ripe : String → String → Prop}

theorem calm_distinct_covered (ripe : String → String → Prop) (c : Claim) :
    Calm fun w : World σ => Distinct w ∧ c.Covered ripe w.db := by
  refine calm_distinct.and fun w w' h hw r' hr' hid hrested hlock => ?_
  obtain ⟨r, hr, rfl | ⟨-, time, rfl⟩⟩ := h.exists_before hr'
  · exact hw r' hr hid hrested hlock
  · cases hrested

/-- A claim that is won leaves the run running on a delay that counts as over. -/
theorem leads_claimSuspended (c : Claim) :
    Leads (Step env G (.due ripe)) (fun w => Kept G ds w ∧ c.Covered ripe w.db)
      (claimSuspended env c)
      (fun taken w => Kept G ds w ∧ (taken → Over (.due ripe) c.run w)) (Kept G ds) := by
  have hraise : Leads (Step env G (.due ripe)) (fun w => Distinct w ∧ c.Covered ripe w.db)
      (claimSuspended env c) (fun taken w => taken → Over (.due ripe) c.run w)
      fun w => Distinct w ∧ c.Covered ripe w.db := by
    refine leads_raiseLock _ _ (.claimSuspended c) rfl (calm_distinct_covered ripe c)
      (fun _ _ => rfl) (fun w hw => hw.2) (fun _ _ => trivial) ?_
    rintro w ⟨hdistinct, hcovered⟩ taken r hr hid hrunning
    obtain ⟨o, ho, rfl | ⟨hoid, hguard, rfl⟩⟩ := Database.exists_of_mem_updateRun hr
    · -- The claim took a row of the run, and there is no other one, so this row was suspended.
      obtain ⟨q, hq, hguard⟩ := (Database.updateRun_fst_iff hdistinct).1 taken
      obtain ⟨hmem, hqid⟩ := (Database.run?_eq_some_iff hdistinct).1 hq
      obtain rfl := hdistinct.eq_of_id_eq ho hmem (hid.trans hqid.symm)
      simp [hrunning] at hguard
    · simp only [Bool.and_eq_true, beq_iff_eq] at hguard
      exact hcovered o ho hoid hguard.1 hguard.2
  exact (hraise.keep fun _ _ => kept_of_step).conseq (fun w hw => ⟨hw.1, hw.1.1.ids, hw.2⟩)
    (fun _ _ hw => hw) fun _ hw => hw.1

/-- A run that is running on a delay that counts as over may be given back. -/
theorem leads_giveBack (c : Claim) (time : Instant) :
    Leads (Step env G (.due ripe)) (fun w => Kept G ds w ∧ Over (.due ripe) c.run w)
      (giveBack env c (some time)) (fun _ => Kept G ds) (Kept G ds) := by
  have hrelease : Leads (Step env G (.due ripe)) (Over (.due ripe) c.run) (release env c time)
      (fun _ _ => True) (Over (.due ripe) c.run) :=
    leads_raiseLock _ _ (.release c time) rfl (calm_over (.due ripe) c.run) (fun _ _ => rfl)
      (fun w hw => hw) (fun _ _ => trivial) fun _ _ => trivial
  refine .bind (B := fun _ => Kept G ds) (Leads.attempt (hrelease.keep fun _ _ => kept_of_step)
    (fun _ _ hw => hw.1) fun _ _ hw => hw.1) fun _ => .pure _ fun _ hw => hw

/-- A claim is handled by steps that count no other delay as over than the one that is claimed. -/
theorem leads_handleClaim (sure : env.host.Sure .fail) (time : Instant) (r : SweepReport)
    (c : Claim) :
    Leads (Step env G (.due ripe)) (fun w => Kept G ds w ∧ c.Covered ripe w.db)
      (handleClaim env (claimSuspended env) (resume env) (some time) r c) (fun _ => Kept G ds)
      (Kept G ds) := by
  have htake : Leads (Step env G (.due ripe)) (fun w => Kept G ds w ∧ c.Covered ripe w.db)
      (Engine.attempt (claimSuspended env c)) (fun taken w => Kept G ds w ∧
        (taken = .ok true → Over (.due ripe) c.run w)) (Kept G ds) := by
    refine Leads.attempt (leads_claimSuspended c) (fun taken w hw => ⟨hw.1, fun h => hw.2 ?_⟩)
      fun _ w hw => ⟨hw, nofun⟩
    exact Except.ok.inj h
  have hresume : Leads (Step env G (.due ripe)) (fun w => Kept G ds w ∧ Over (.due ripe) c.run w)
      (Engine.attempt (resume env c.run)) (fun ended w => Kept G ds w ∧
        ∀ f, ended = .error f → Over (.due ripe) c.run w) (Kept G ds) := by
    refine Leads.attempt ((leads_runFrom goes_routeFollowUps true c.run).pre fun w hw =>
      ⟨hw.1, fun _ => hw.2⟩) (fun _ w hw => ⟨hw, nofun⟩) fun _ w hw => ⟨hw.1, fun _ _ => ?_⟩
    exact hw.2 sure rfl
  unfold handleClaim
  refine .bind htake fun taken => ?_
  split
  · exact .pure _ fun w hw => hw.1
  · exact .pure _ fun w hw => hw.1
  · refine .bind (hresume.pre fun w hw => ⟨hw.1, hw.2 rfl⟩) fun ended => ?_
    split
    · exact .pure _ fun w hw => hw.1
    · rename_i f
      exact .bind ((leads_giveBack c time).pre fun w hw => ⟨hw.1, hw.2 f rfl⟩) fun _ =>
        .pure _ fun w hw => hw

end Engine

/-! ## Sweeps -/

/-- What a claim would take of a database: its run, if it is suspended as it was listed. -/
def Claim.Takes (c : Claim) (db : Database) (run node : String) : Prop :=
  run = c.run ∧ ∃ r ∈ db.runs, r.id = run ∧ r.node = node ∧ r.state = .suspended ∧ r.lock = c.lock

theorem Claim.covered_takes (c : Claim) (db : Database) : c.Covered (c.Takes db) db :=
  fun r hr hid hrested hlock => ⟨hid, r, hr, rfl, rfl, hrested, hlock⟩

section Sweeps

variable {env : Environment σ} {ds : List Definition} {time : Instant} {c : Claim}
  {claims : List Claim} {w w' : World (σ × List Sighting)}

/-- The delay of a run that is due is over. -/
theorem Ledger.elapsed_takes (hw : Ledger G w) (htime : time.micros ≤ w.clock.micros)
    (hc : c.Due time w.db) : Elapsed G (c.Takes w.db) w := by
  rintro _ _ ⟨hrun, r, hr, rfl, rfl, hrested, hlock⟩
  refine ⟨⟨r, hr, rfl, fun _ _ => .refl⟩, fun before d d' hb a ha hid hnode minutes hd => ?_⟩
  obtain ⟨-, hdue | ⟨o, ho, hoid, -, hwaits⟩⟩ := hw.held before d d' hb a ha minutes hd
  · exact hdue
  · obtain rfl := hw.distinct.eq_of_id_eq ho hr (hoid.trans hid)
    obtain ⟨t, hresume, htill⟩ := hwaits.resting hrested
    obtain ⟨t', hresume', hdue⟩ := hc.exists_resumeAt hw.distinct hr hrun hrested hlock
    obtain rfl : t = t' := Option.some.inj (hresume.symm.trans hresume')
    omega

/-- In the middle of a sweep: no delay was cut short so far, and the runs that are left are due. -/
structure Sweeping (G : String → Graph → Prop) (ds : List Definition) (time : Instant)
    (claims : List Claim) (w : World (σ × List Sighting)) : Prop where
  kept : Kept G ds w
  ledger : Ledger G w
  begun : time.micros ≤ w.clock.micros
  due : ∀ c ∈ claims, c.Due time w.db

theorem Sweeping.of_step {ripe : String → String → Prop} (hG : Relator.RightUnique G)
    (acyclic : ∀ id g, G id g → g.Acyclic) (h : Step env.observed G (.due ripe) w w')
    (hover : Elapsed G ripe w) (hw : Sweeping G ds time claims w) :
    Sweeping G ds time claims w' where
  kept := Engine.kept_of_step h hw.kept
  ledger := hw.ledger.of_step hG acyclic h hover
  begun := hw.begun.trans h.timed.1
  due c hc := (hw.due c hc).of_effect h.effect

theorem Sweeping.mono {l : List Claim} (hl : ∀ c ∈ l, c ∈ claims)
    (hw : Sweeping G ds time claims w) : Sweeping G ds time l w :=
  ⟨hw.kept, hw.ledger, hw.begun, fun c hc => hw.due c (hl c hc)⟩

theorem elapsed_none : Elapsed G (fun _ _ => False) w := fun _ _ h => h.elim

namespace Engine

/-- A computation that counts no other delays as over than those that are keeps a sweep going. -/
theorem Leads.sweeping {α : Type} {ripe : String → String → Prop}
    {A X : World (σ × List Sighting) → Prop} {B : α → World (σ × List Sighting) → Prop}
    {x : Engine (σ × List Sighting) α} (hG : Relator.RightUnique G)
    (acyclic : ∀ id g, G id g → g.Acyclic) (hx : Leads (Step env.observed G (.due ripe)) A x B X) :
    Leads (fun _ _ => True) (fun w => (Elapsed G ripe w ∧ Sweeping G ds time claims w) ∧ A w) x
      (fun a w => Sweeping G ds time claims w ∧ B a w) (Sweeping G ds time claims) := by
  have hkeep : ∀ a b, Step env.observed G (.due ripe) a b →
      Elapsed G ripe a ∧ Sweeping G ds time claims a →
      Elapsed G ripe b ∧ Sweeping G ds time claims b := fun a b h ha =>
    ⟨ha.1.of_step hG acyclic ha.2.ledger.distinct h, ha.2.of_step hG acyclic h ha.1⟩
  exact ((hx.keep hkeep).steps fun _ _ _ => trivial).conseq (fun _ hw => hw)
    (fun _ _ hw => ⟨hw.1.2, hw.2⟩) fun _ hw => hw.1.2

variable (hG : Relator.RightUnique G) (acyclic : ∀ id g, G id g → g.Acyclic)

include hG acyclic

/-- What a sweep lists is due. -/
theorem sweeping_dueRuns (limit : Int) :
    Leads (fun _ _ => True) (Sweeping G ds time []) (dueRuns env.observed time limit)
      (fun claims => Sweeping G ds time claims) (Sweeping G ds time []) := by
  refine .bind (((leads_look .dueRuns _ (.const True)).sweeping hG acyclic).pre
    fun w hw => ⟨⟨elapsed_none, hw⟩, trivial⟩) fun found =>
    .ofExcept _ (fun claims w hfound hw => ?_) fun w hw => hw.1
  obtain ⟨hsweeping, -, hread⟩ := hw
  rw [hread] at hfound
  rcases hlimit : Database.bound limit with e | limit' <;> rw [hlimit] at hfound
  · cases hfound
  · obtain rfl : w.db.dueRuns time limit' = claims := Except.ok.inj hfound
    exact { hsweeping with due := fun c hc => .of_mem_dueRuns hsweeping.ledger.distinct hc }

theorem sweeping_recoverStale (cutoff : Instant) (r : SweepReport) :
    Stays (fun _ _ => True) (Sweeping G ds time []) (recoverStale env.observed cutoff r) := by
  have hrecover : Goes env.observed G (.due fun _ _ => False) ds
      (recoverStale env.observed cutoff r) :=
    goes_recoverStale (fun _ _ => trivial) cutoff r
  exact (Leads.sweeping hG acyclic hrecover).conseq
    (fun _ hw => ⟨⟨elapsed_none, hw⟩, hw.kept⟩) (fun _ _ hw => hw.1) fun _ hw => hw

variable (sure : env.host.Sure .fail)

include sure

/-- Handling one of the claims of a sweep leaves the others due. -/
theorem sweeping_handleClaim (r : SweepReport) :
    Leads (fun _ _ => True) (Sweeping G ds time (c :: claims))
      (handleClaim env.observed (claimSuspended env.observed) (resume env.observed) (some time) r c)
      (fun _ => Sweeping G ds time claims) (Sweeping G ds time claims) := by
  intro w hw
  have hsure : env.observed.host.Sure .fail := fun db s => sure db s.1
  -- Which delay counts as over depends on the world in which this claim is about to be made.
  have helapsed : Elapsed G (c.Takes w.db) w :=
    hw.ledger.elapsed_takes hw.begun (hw.due c List.mem_cons_self)
  have hrest : Sweeping G ds time claims w := hw.mono fun _ => List.mem_cons_of_mem c
  exact (((leads_handleClaim hsure time r c).sweeping hG acyclic).post fun _ _ hw => hw.1) w
    ⟨⟨helapsed, hrest⟩, hw.kept, c.covered_takes w.db⟩

theorem sweeping_handleClaims : ∀ (claims : List Claim) (r : SweepReport),
    Leads (fun _ _ => True) (Sweeping G ds time claims)
      (handleClaims env.observed (claimSuspended env.observed) (resume env.observed) (some time) r
        claims)
      (fun _ => Sweeping G ds time []) (Sweeping G ds time [])
  | [], r => .pure r fun _ hw => hw
  | _ :: claims, r => .bind ((sweeping_handleClaim hG acyclic sure r).fails
      fun _ hw => hw.mono fun _ => List.not_mem_nil.elim)
      fun r' => sweeping_handleClaims claims r'

theorem sweeping_sweepAt (time : Instant) :
    Stays (fun _ _ => True) (Sweeping G ds time []) (sweepAt env.observed time) := by
  refine Leads.bind (sweeping_dueRuns hG acyclic _) fun claims =>
    Leads.bind (B := fun _ => Sweeping G ds time []) ?_ fun r =>
      sweeping_recoverStale hG acyclic time r
  unfold handleAll
  split
  · exact .throw _ fun _ hw => hw.mono fun _ => List.not_mem_nil.elim
  · exact sweeping_handleClaims hG acyclic sure claims _

theorem sweeping_sweep :
    Stays (fun _ _ => True) (fun w => Kept G ds w ∧ Ledger G w) (sweep env.observed) := by
  refine Leads.bind (B := fun time => Sweeping G ds time []) (fun w hw => ?_) fun time =>
    (sweeping_sweepAt hG acyclic sure time).conseq (fun _ hw => hw)
      (fun _ _ hw => ⟨hw.kept, hw.ledger⟩) fun _ hw => ⟨hw.kept, hw.ledger⟩
  have htick : Step env.observed G (.due fun _ _ => False) w { w with clock := w.clock.later 1 } :=
    .tick
  exact ⟨.single trivial, kept_of_step htick hw.1, hw.2.of_step hG acyclic htick elapsed_none,
    Nat.le_refl _, fun _ => List.not_mem_nil.elim⟩

end Engine

end Sweeps

/-! ## Histories -/

/-- The operation does not resume a run by hand, turn the clock back, or sweep ahead of it. -/
def Operation.inTime (w : World σ) : Operation → Bool
  | resume _ => false
  | sweepAt time => time.micros ≤ w.clock.micros
  | rest time => w.clock.micros ≤ time.micros
  | event _ | start .. | advance _ | sweep | recover _ | cancel _ | restart => true

/-- All of the operations are in time, one after the other. -/
def inTime (env : Environment σ) (w : World σ) : List Operation → Bool
  | [] => true
  | o :: ops => o.inTime w && inTime env (o.perform env w) ops

section Histories

variable {env : Environment σ} {ds : List Definition} {w : World (σ × List Sighting)}

theorem Operation.keep_ledger (hG : Relator.RightUnique G)
    (acyclic : ∀ id g, G id g → g.Acyclic) (sure : env.host.Sure .fail) {o : Operation}
    (intime : o.inTime w) (hw : Kept G ds w ∧ Ledger G w) :
    Kept G ds (o.perform env.observed w) ∧ Ledger G (o.perform env.observed w) := by
  cases o with
  | resume run => cases intime
  | sweep => exact (Engine.stays_iff.1 (Engine.sweeping_sweep hG acyclic sure) w hw).2
  | sweepAt time =>
    have hbegun : time.micros ≤ w.clock.micros := of_decide_eq_true intime
    have hsweep := (Engine.stays_iff.1 (Engine.sweeping_sweepAt hG acyclic sure time) w
      ⟨hw.1, hw.2, hbegun, fun _ => List.not_mem_nil.elim⟩).2
    exact ⟨hsweep.kept, hsweep.ledger⟩
  | rest time => exact ⟨hw.1.rest time, .congr (w := w) rfl rfl (of_decide_eq_true intime) hw.2⟩
  | restart => exact ⟨hw.1.restart, .congr (w := w) rfl rfl (Nat.le_refl _) hw.2⟩
  | event | start | advance | recover | cancel =>
    have hstep : ∀ w w', Step env.observed G (.due fun _ _ => False) w w' → Ledger G w →
      Ledger G w' := fun _ _ h => .of_step hG acyclic h elapsed_none
    refine keep_of_isPlain hstep (fun _ _ => trivial) (fun _ _ => trivial) ?_ hw
    trivial

theorem ledger_performAll (hG : Relator.RightUnique G) (acyclic : ∀ id g, G id g → g.Acyclic)
    (sure : env.host.Sure .fail) (ops : List Operation) {w : World (σ × List Sighting)}
    (intime : inTime env.observed w ops) (hw : Kept G ds w ∧ Ledger G w) :
    Ledger G (performAll env.observed w ops) := by
  induction ops generalizing w with
  | nil => exact hw.2
  | cons o ops ih =>
    obtain ⟨hfirst, hrest⟩ := Bool.and_eq_true_iff.1 intime
    exact ih hrest (o.keep_ledger hG acyclic sure hfirst hw)

/-- No delay of a history was cut short: a run that leaves one, or is completed on it, came to it so
many minutes before. -/
def Punctual (w : World (σ × List Sighting)) : Prop :=
  ∀ before d d', Became w.sightings w.db before d d' → ∀ r ∈ d.runs, ∀ r' ∈ d'.runs,
    r.Leaves r' → OnTime d.HasGraph before d r r'

/-- On graphs without circles no delay is cut short, whatever else fails and however runs are handed
back and claimed again, provided that runs that cannot go on can be failed. -/
theorem performAll_punctual (env : Environment σ) (w : World (σ × List Sighting))
    (pristine : w.Pristine) (acyclic : ∀ id g, w.db.HasGraph id g → g.Acyclic)
    (sure : env.host.Sure .fail) (ops : List Operation) (intime : inTime env.observed w ops) :
    Punctual (performAll env.observed w ops) := by
  have hunique : Relator.RightUnique w.db.HasGraph := fun _ _ _ h h' =>
    Option.some.inj (h.symm.trans h')
  have hledger : Ledger w.db.HasGraph (performAll env.observed w ops) := by
    refine ledger_performAll hunique acyclic sure ops intime ⟨pristine.kept, ?_, ?_, ?_, ?_⟩
    · simp [Distinct, pristine.runs]
    · simp [pristine.records]
    · exact fun before d d' hb => absurd hb pristine.not_became
    · exact fun before d d' hb => absurd hb pristine.not_became
  have hhistory : Chronicle w.db.HasGraph (performAll env.observed w ops) := pristine.chronicle ops
  intro before d d' hb r hr r' hr' hl
  rw [hhistory.hasGraph_eq hb]
  exact hledger.left before d d' hb r hr r' hr' hl

end Histories

/-! ## A delay cut short -/

/-- Where the run stood in a history, and the minute in which its row was written. -/
def World.timetable (w : World (Nat × List Sighting)) : List (List (String × Nat)) :=
  (w.trace.map fun d => d.runs.map fun r =>
    (r.node, r.updatedAt.micros / Instant.microsPerMinute)).destutter (· ≠ ·)

theorem acyclic_morning (id : String) (g : Graph) (hg : morning.db.HasGraph id g) : g.Acyclic := by
  obtain ⟨d, hd, hparse⟩ := Option.bind_eq_some_iff.1 hg
  obtain rfl : d = reminder := List.mem_singleton.1 (List.mem_of_find?_eq_some hd)
  have hforward : ((Engine.parse reminder.graph).toOption.all fun g =>
      (g.nodes.map (·.id)).Nodup && g.edges.all fun e => e.source < e.target) = true := by
    decide +kernel
  rw [hparse] at hforward
  simp only [Option.all_some, Bool.and_eq_true, decide_eq_true_eq, List.all_eq_true] at hforward
  exact Graph.acyclic_of_forward hforward.1 hforward.2

/-- A run that could not be read when it was to be resumed is handed back, and resumed a minute
later; its next delay is kept in full. -/
theorem performAll_punctual_of_handed_back :
    let env := faulty fun call n => call ≠ .fail && n == 13
    let ops := [.start "reminder-1" "c-1" [], .rest (minute 11), .sweep, .rest (minute 12), .sweep,
      .rest (minute 71), .sweep, .rest (minute 73), .sweep]
    morning.Pristine ∧ (∀ id g, morning.db.HasGraph id g → g.Acyclic) ∧ env.host.Sure .fail ∧
    inTime env.observed morning ops ∧
    Punctual (performAll env.observed morning ops) ∧
    (performAll env.observed morning ops).timetable = [[], [("start", 0)], [("short", 0)],
      [("short", 11)], [("short", 12)], [("long", 12)], [("long", 73)], [("tag", 73)]] := by
  intro env ops
  have sure : env.host.Sure .fail := fun _ _ => rfl
  have intime : inTime env.observed morning ops := by decide +kernel
  exact ⟨pristine_morning, acyclic_morning, sure, intime,
    performAll_punctual env morning pristine_morning acyclic_morning sure ops intime,
    by decide +kernel⟩

/-- A run that has come to its second delay is handed back when the database fails twice: when the
run is looked up there, and when it is to be failed. It is due at once, and the delay of an hour is
cut short to a minute. -/
theorem delay_cut_short :
    let env := faulty fun _ n => n == 16 || n == 17
    let ops := [.start "reminder-1" "c-1" [], .rest (minute 11), .sweep, .rest (minute 12), .sweep]
    inTime env.observed morning ops ∧
    (performAll env.observed morning ops).timetable = [[], [("start", 0)], [("short", 0)],
      [("short", 11)], [("long", 11)], [("long", 12)], [("tag", 12)]] :=
  ⟨by decide +kernel, by decide +kernel⟩

end CrmAutomation
