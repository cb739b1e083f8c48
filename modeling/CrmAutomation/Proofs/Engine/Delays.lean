import CrmAutomation.Proofs.Engine.Outcomes
import CrmAutomation.Proofs.Engine.Position
import CrmAutomation.Proofs.Graph.Ways

/-!
# Runs on delays

A run that comes to a delay is running, and nothing was recorded of the delay; once it is suspended
it is not due before the delay is over (`Run.Waits`). Every step keeps that, and a run cannot leave
a delay on which it waits (`Held.of_step`), as long as claims and releases are made of runs on
delays that are over (`Scope.due`). A graph without circles matters here: on such a graph a run
never comes to a node again (`Effect.not_arrives`), so what the trail tells of a delay is about this
one stay.

`Ledger` puts it together for a history, with its headline: whenever a run has left a delay, the
delay was over (`Ledger.left`).
-/

namespace CrmAutomation

variable {σ : Type} {G : String → Graph → Prop} {scope : Scope} {d d₁ d' : Database}

/-! ## The end of a delay -/

/-- The microsecond at which a delay of so many minutes is over that began at an instant. -/
def Instant.afterMinutes (t : Instant) (minutes : Int) : Int :=
  t.micros + minutes * Instant.microsPerMinute

theorem Instant.micros_of_addMinutes {t t' : Instant} {minutes : Int}
    (h : t.addMinutes minutes = .ok t') : (t'.micros : Int) = t.afterMinutes minutes := by
  have hunit : (microsPerDay / 1440 : Nat) = microsPerMinute := by decide
  simp only [addMinutes, addUnits, hunit] at h
  split at h
  · cases h
  · split at h
    · cases h
    · split at h
      · rename_i hrange
        cases h
        exact Int.toNat_of_nonneg hrange.1
      · cases h

/-! ## Waiting -/

/-- A run on a delay that it may not leave before `until`: the delay is not settled while the run is
running, and the run is not due before while it is suspended. -/
structure Run.Waits (G : String → Graph → Prop) (db : Database) (minutes till : Int) (r : Run) :
    Prop where
  placed : r.OnDelay G minutes
  unsettled : r.state = .running → ¬db.Settled r.id r.node
  resting : r.state = .suspended → ∃ t, r.resumeAt = some t ∧ till ≤ t.micros

/-- A run that the claim would take is on a delay that counts as over. -/
def Claim.Covered (ripe : String → String → Prop) (c : Claim) (db : Database) : Prop :=
  ∀ r ∈ db.runs, r.id = c.run → r.state = .suspended → r.lock = c.lock → ripe r.id r.node

/-- Runs on delays are claimed and released only if the delay counts as over. -/
def Scope.due (ripe : String → String → Prop) : Scope where
  outside db c := match c with
    | .claimSuspended c => c.Covered ripe db
    | .release c _ => ∀ r ∈ db.runs, r.id = c.run → r.state = .running → ripe r.id r.node
    | _ => True
  elapsed := ripe

theorem Database.exists_mem_updateRun {P : Run → Prop} {id : String} {guard : Run → Bool}
    {change : Run → Run} {r : Run} (hr : r ∈ d.runs) (hstay : P r)
    (hchange : r.id = id → guard r → P (change r)) :
    ∃ r' ∈ (d.updateRun id guard change).2.runs, P r' := by
  refine ⟨_, List.mem_map_of_mem hr, ?_⟩
  dsimp only
  split
  · rename_i htarget
    simp only [Bool.and_eq_true, beq_iff_eq] at htarget
    exact hchange htarget.1 htarget.2
  · exact hstay

namespace Run.Waits

variable {ripe : String → String → Prop} {minutes till : Int} {r r₁ : Run}

/-- A run that has come to its end waits for nothing. -/
theorem of_ended (placed : r.OnDelay G minutes) (ended : r.state.isActive = false) :
    r.Waits G d minutes till where
  placed := placed
  unsettled hrunning := by simp [hrunning, RunState.isActive] at ended
  resting hrested := by simp [hrested, RunState.isActive] at ended

theorem of_concedes (hd : d.Concedes d₁) (hr : r.Conceded r₁) (h : r.Waits G d minutes till) :
    r₁.Waits G d₁ minutes till := by
  rcases hr with rfl | ⟨-, time, rfl⟩
  · exact ⟨h.placed, by simpa only [Database.Settled, hd.recordsOf_eq] using h.unsettled,
      h.resting⟩
  · exact of_ended h.placed rfl

/-- A run that waits may not leave its delay unless the delay counts as over. -/
theorem elapsed_of_mayLeave (hG : Relator.RightUnique G) (h : r.Waits G d minutes till)
    (hrunning : r.state = .running) {g : Graph} (hg : G r.definition g)
    (hleave : g.MayLeave scope d r) : scope.elapsed r.id r.node := by
  obtain ⟨g', n, hg', hn, hconfig⟩ := h.placed
  obtain rfl := hG hg hg'
  have htype : n.type = .delay := by rw [Node.type, hconfig, NodeConfig.type]
  exact ((hleave n hn (by simp [htype])).resolve_left (h.unsettled hrunning)).2

/-- A command leaves a run waiting if the delay does not count as over. -/
theorem perform (hG : Relator.RightUnique G) {c : RunCommand} {time : Instant} (now : Instant)
    (allowed : c.Allowed G (.due ripe) d) (timely : c.Timely G time d)
    (htime : till ≤ time.afterMinutes minutes) (hr : r ∈ d.runs) (h : r.Waits G d minutes till)
    (hover : ¬ripe r.id r.node) :
    ∃ r' ∈ (c.perform now d).runs, r'.id = r.id ∧ r'.node = r.node ∧
      r'.Waits G (c.perform now d) minutes till := by
  have hsettled : ∀ run node, (c.perform now d).Settled run node ↔ d.Settled run node := by
    simp only [Database.Settled, Database.recordsOf, c.records_perform, implies_true]
  have hstay : r.id = r.id ∧ r.node = r.node ∧ r.Waits G (c.perform now d) minutes till :=
    ⟨rfl, rfl, h.placed, fun hrunning => (hsettled _ _).not.2 (h.unsettled hrunning), h.resting⟩
  cases c with
  | create id definition contact node event chainDepth =>
    refine ⟨r, ?_, hstay⟩
    simp only [RunCommand.perform, Database.createRun]
    split
    · exact hr
    · exact List.mem_append_left _ hr
  | moveTo run node =>
    refine Database.exists_mem_updateRun hr hstay fun hid hguard => absurd ?_ hover
    obtain ⟨g, hg, -, hleave⟩ := allowed r hr hid
    exact h.elapsed_of_mayLeave hG (RunCommand.running_of_isRunning hguard) hg hleave
  | complete run =>
    refine Database.exists_mem_updateRun hr hstay fun hid hguard => absurd ?_ hover
    obtain ⟨g, hg, -, hleave⟩ := allowed r hr hid
    exact h.elapsed_of_mayLeave hG (RunCommand.running_of_isRunning hguard) hg hleave
  | suspend run node resumeAt =>
    refine Database.exists_mem_updateRun hr hstay fun hid _ => ?_
    obtain ⟨minutes', ⟨g', n', hg', hn', hconfig'⟩, hresume⟩ := timely r hr hid
    obtain ⟨g, n, hg, hn, hconfig⟩ := h.placed
    obtain rfl := hG hg hg'
    obtain rfl := Option.some.inj (hn.symm.trans hn')
    obtain rfl : minutes = minutes' := by simpa [hconfig] using hconfig'
    have hnode : r.node = node := allowed r hr hid
    subst hnode
    refine ⟨rfl, rfl, ⟨g, n, hg, hn, hconfig⟩, by simp, fun _ => ⟨resumeAt, rfl, ?_⟩⟩
    rwa [Instant.micros_of_addMinutes hresume]
  | fail | cancel =>
    exact Database.exists_mem_updateRun hr hstay fun _ _ =>
      ⟨rfl, rfl, of_ended h.placed rfl⟩
  | claimSuspended c =>
    refine Database.exists_mem_updateRun hr hstay fun hid hguard => absurd ?_ hover
    simp only [Bool.and_eq_true, beq_iff_eq] at hguard
    exact allowed r hr hid hguard.1 hguard.2
  | release c resumeAt =>
    refine Database.exists_mem_updateRun hr hstay fun hid hguard => absurd ?_ hover
    simp only [Bool.and_eq_true, beq_iff_eq] at hguard
    exact allowed r hr hid (RunCommand.running_of_isRunning hguard.1)
  | claimStale c =>
    refine Database.exists_mem_updateRun hr hstay fun _ _ => ?_
    exact ⟨rfl, rfl, h.placed, fun hrunning => (hsettled _ _).not.2 (h.unsettled hrunning),
      h.resting⟩

/-- A record leaves a run waiting: of a delay it is made while the run is not running. -/
theorem record (hG : Relator.RightUnique G) {o : NodeRecord} (admitted : d.Admits G o)
    (distinct : (d.runs.map (·.id)).Nodup) (hr : r ∈ d.runs) (h : r.Waits G d minutes till) :
    r.Waits G { d with records := d.records ++ [o] } minutes till := by
  refine ⟨h.placed, fun hrunning hsettled => ?_, h.resting⟩
  obtain ⟨o', ho', houtcome⟩ := hsettled
  obtain ⟨hmem, hkey⟩ := List.mem_filter.1 ho'
  rcases List.mem_append.1 hmem with hmem | hmem
  · exact h.unsettled hrunning ⟨o', List.mem_filter.2 ⟨hmem, hkey⟩, houtcome⟩
  · obtain rfl := List.mem_singleton.1 hmem
    simp only [Bool.and_eq_true, beq_iff_eq] at hkey
    obtain ⟨q, hq, hrun, -, -, g, n, hg, hn, -, -, hdelay⟩ := admitted
    obtain rfl := List.inj_on_of_nodup_map distinct hq hr (hrun.symm.trans hkey.1)
    obtain ⟨g', n', hg', hn', hconfig⟩ := h.placed
    obtain rfl := hG hg hg'
    obtain rfl := Option.some.inj (hn.symm.trans hn')
    exact hdelay (by rw [Node.type, hconfig, NodeConfig.type]) hrunning

end Run.Waits

/-- Of a run that came to a delay as `r`: the delay is over, or the run waits on it. -/
def Held (G : String → Graph → Prop) (r : Run) (minutes : Int) (w : World σ) : Prop :=
  r.updatedAt.micros ≤ w.clock.micros ∧
    (r.updatedAt.afterMinutes minutes ≤ w.clock.micros ∨
      ∃ o ∈ w.db.runs, o.id = r.id ∧ o.node = r.node ∧
        o.Waits G w.db minutes (r.updatedAt.afterMinutes minutes))

section Steps

variable {env : Environment σ} {ripe : String → String → Prop} {w w' : World σ} {r r' : Run}

theorem Held.of_step (hG : Relator.RightUnique G) (distinct : Distinct w)
    (h : Step env G (.due ripe) w w') {minutes : Int}
    (hover : ripe r.id r.node → r.updatedAt.afterMinutes minutes ≤ w.clock.micros)
    (hw : Held G r minutes w) : Held G r minutes w' := by
  obtain ⟨hbegun, hheld⟩ := hw
  obtain ⟨hclock, heffect⟩ := h.timed
  refine ⟨hbegun.trans hclock, ?_⟩
  -- A delay that is over stays over, so only a run that waits is followed through the step.
  by_cases hdue : r.updatedAt.afterMinutes minutes ≤ w.clock.micros
  · exact Or.inl (by omega)
  obtain ⟨o, ho, hid, hnode, hwaits⟩ := hheld.resolve_left hdue
  have hnot : ¬ripe r.id r.node := fun h => hdue (hover h)
  refine Or.inr ?_
  rcases heffect with conceded | ⟨d, c, conceded, allowed, timely, heq⟩ |
    ⟨d, q, conceded, admitted, heq⟩
  · obtain ⟨o', ho', hc⟩ := conceded.exists_after ho
    exact ⟨o', ho', hc.id_eq.trans hid, hc.node_eq.trans hnode, hwaits.of_concedes conceded hc⟩
  · obtain ⟨o', ho', hc⟩ := conceded.exists_after ho
    have hid' := hc.id_eq.trans hid
    have hnode' := hc.node_eq.trans hnode
    have htime : r.updatedAt.afterMinutes minutes ≤ w.clock.afterMinutes minutes := by
      simp only [Instant.afterMinutes]
      omega
    obtain ⟨q, hq, hqid, hqnode, hqwaits⟩ := (hwaits.of_concedes conceded hc).perform hG
      w'.clock allowed timely htime ho' (by rwa [hid', hnode'])
    rw [heq]
    exact ⟨q, hq, hqid.trans hid', hqnode.trans hnode', hqwaits⟩
  · obtain ⟨o', ho', hc⟩ := conceded.exists_after ho
    have distinct' : (d.runs.map (·.id)).Nodup := by rwa [conceded.ids_eq]
    rw [heq]
    exact ⟨o', ho', hc.id_eq.trans hid, hc.node_eq.trans hnode,
      (hwaits.of_concedes conceded hc).record hG admitted distinct' ho'⟩

/-! ## Coming to a node -/

/-- A run comes to the node that it is on. -/
structure Run.Arrives (d d' : Database) (r : Run) : Prop where
  mem : r ∈ d'.runs
  new : ∀ o ∈ d.runs, o.id = r.id → o.node ≠ r.node

theorem Run.Arrives.not_concedes (h : r.Arrives d d') : ¬d.Concedes d' := by
  intro hd
  obtain ⟨o, ho, hc⟩ := hd.exists_before h.mem
  exact h.new o ho hc.id_eq.symm hc.node_eq.symm

/-- A command by which a run comes to a node leaves it running. -/
theorem RunCommand.of_arrives {c : RunCommand} {now : Instant} (allowed : c.Allowed G scope d)
    (distinct : (d.runs.map (·.id)).Nodup) (h : r.Arrives d (c.perform now d)) :
    r.state = .running ∧ r.updatedAt = now := by
  have hmoved : ∀ o ∈ d.runs, r.id = o.id → r.state = .running ∧ r.updatedAt = now := by
    intro o ho hid
    have hnode : r.node ≠ o.node := fun heq => h.new o ho hid.symm heq.symm
    obtain ⟨-, htime, hstate, -⟩ := c.of_leaves allowed distinct ho h.mem ⟨hid, Or.inl hnode⟩
    exact ⟨hstate hnode, htime⟩
  have hwritten : ∀ {id : String} {guard : Run → Bool} {change : Run → Run},
      r ∈ (d.updateRun id guard change).2.runs → (∀ o, (change o).id = o.id) →
      r.state = .running ∧ r.updatedAt = now := by
    intro id guard change hmem hchange
    obtain ⟨o, ho, rfl | ⟨-, -, rfl⟩⟩ := Database.exists_of_mem_updateRun hmem
    · exact hmoved _ ho rfl
    · exact hmoved o ho (hchange o)
  have hmem := h.mem
  cases c with
  | create id definition contact node event chainDepth =>
    simp only [perform, Database.createRun] at hmem
    split at hmem
    · exact hmoved r hmem rfl
    · rcases List.mem_append.1 hmem with hmem | hmem
      · exact hmoved r hmem rfl
      · obtain rfl := List.mem_singleton.1 hmem
        exact ⟨rfl, rfl⟩
  | moveTo | suspend | complete | fail | cancel | claimSuspended | release | claimStale =>
    exact hwritten hmem fun _ => rfl

/-- A step by which a run comes to a node leaves it running, and records nothing. -/
theorem Step.of_arrives (h : Step env G scope w w') (distinct : Distinct w)
    (ha : r.Arrives w.db w'.db) :
    r.state = .running ∧ r.updatedAt = w'.clock ∧ w'.db.records = w.db.records := by
  obtain ⟨-, conceded | ⟨d, c, conceded, allowed, -, heq⟩ | ⟨d, o, conceded, -, heq⟩⟩ := h.timed
  · exact absurd conceded ha.not_concedes
  · have ha' : r.Arrives d (c.perform w'.clock d) := by
      refine ⟨heq ▸ ha.mem, fun o ho hid hnode => ?_⟩
      obtain ⟨o', ho', hc⟩ := conceded.exists_before ho
      exact ha.new o' ho' (hc.id_eq.symm.trans hid) (hc.node_eq.symm.trans hnode)
    obtain ⟨hstate, htime⟩ := c.of_arrives allowed (by rwa [conceded.ids_eq]) ha'
    exact ⟨hstate, htime, by rw [heq, c.records_perform, conceded.records_eq]⟩
  · have ha' : r.Arrives w.db d := ⟨by simpa [heq] using ha.mem, ha.new⟩
    exact absurd conceded ha'.not_concedes

/-- The run has come from the node, or is on it still. -/
def Reached (G : String → Graph → Prop) (d : Database) (run node : String) : Prop :=
  ∃ r ∈ d.runs, r.id = run ∧ ∀ g, G r.definition g → Relation.ReflTransGen g.Next node r.node

theorem Database.Effect.reached (hG : Relator.RightUnique G) (h : d.Effect G scope d')
    (distinct : (d.runs.map (·.id)).Nodup) {run node : String} (hd : Reached G d run node) :
    Reached G d' run node := by
  obtain ⟨r, hr, rfl, hway⟩ := hd
  obtain ⟨r', hr', hid, hdefinition⟩ := h.exists_after hr
  refine ⟨r', hr', hid, fun g hg => ?_⟩
  rw [hdefinition] at hg
  rcases h.course hr' with ⟨o, ho, hcourse⟩ | ⟨hnew, -⟩
  · obtain rfl := List.inj_on_of_nodup_map distinct ho hr (hcourse.id_eq.symm.trans hid)
    by_cases hnode : r'.node = o.node
    · exact hnode ▸ hway g hg
    · obtain ⟨g', hg', handle, -, hnext⟩ := hcourse.moved hnode
      obtain rfl := hG hg hg'
      exact (hway g hg).tail ⟨handle, hnext⟩
  · exact absurd (hid ▸ List.mem_map_of_mem hr) hnew

/-- On a graph without circles a run does not come to a node again. -/
theorem Database.Effect.not_arrives (acyclic : ∀ id g, G id g → g.Acyclic)
    (h : d.Effect G scope d') (distinct : (d.runs.map (·.id)).Nodup)
    (hd : Reached G d r.id r.node) : ¬r.Arrives d d' := by
  intro ha
  obtain ⟨o, ho, hid, hway⟩ := hd
  rcases h.course ha.mem with ⟨q, hq, hcourse⟩ | ⟨hnew, -⟩
  · obtain rfl := List.inj_on_of_nodup_map distinct hq ho (hcourse.id_eq.symm.trans hid.symm)
    obtain ⟨g, hg, handle, -, hnext⟩ := hcourse.moved fun heq => ha.new q hq hid heq.symm
    exact acyclic _ g hg r.node (.tail' (hway g hg) ⟨handle, hnext⟩)
  · exact absurd (hid ▸ List.mem_map_of_mem ho) hnew

end Steps

/-! ## Histories -/

/-- A run that left its node when the history had been seen so far left it no earlier than any delay
was over that it had come to there. -/
def OnTime (G : String → Graph → Prop) (seen : List Sighting) (d : Database) (r r' : Run) : Prop :=
  ∀ before e e', Became seen d before e e' → ∀ a : Run, a.Arrives e e' → a.id = r.id →
    a.node = r.node → ∀ minutes, a.OnDelay G minutes →
    a.updatedAt.afterMinutes minutes ≤ r'.updatedAt.micros

/-- What is known of the delays in a history: the trail is about nodes that runs have come from,
each delay that a run came to is over or waited on, and no delay was left before it was over. -/
structure Ledger (G : String → Graph → Prop) (w : World (σ × List Sighting)) : Prop where
  distinct : Distinct w
  reached : ∀ o ∈ w.db.records, Reached G w.db o.run o.node
  held : ∀ before d d', Became w.sightings w.db before d d' → ∀ r : Run, r.Arrives d d' →
    ∀ minutes, r.OnDelay G minutes → Held G r minutes w
  left : ∀ before d d', Became w.sightings w.db before d d' → ∀ r ∈ d.runs, ∀ r' ∈ d'.runs,
    r.Leaves r' → OnTime G before d r r'

/-- What counts as over is over: the run has been on the node, and every delay that it came to there
is over by now. -/
def Elapsed (G : String → Graph → Prop) (ripe : String → String → Prop)
    (w : World (σ × List Sighting)) : Prop :=
  ∀ run node, ripe run node → Reached G w.db run node ∧
    ∀ before d d', Became w.sightings w.db before d d' → ∀ r : Run, r.Arrives d d' → r.id = run →
      r.node = node → ∀ minutes, r.OnDelay G minutes →
      r.updatedAt.afterMinutes minutes ≤ w.clock.micros

section Histories

variable {env : Environment σ} {ripe : String → String → Prop} {w w' : World (σ × List Sighting)}

theorem Elapsed.of_step (hG : Relator.RightUnique G) (acyclic : ∀ id g, G id g → g.Acyclic)
    (distinct : Distinct w) (h : Step env.observed G (.due ripe) w w') (hw : Elapsed G ripe w) :
    Elapsed G ripe w' := by
  intro run node hover
  obtain ⟨hreached, helapsed⟩ := hw run node hover
  refine ⟨h.effect.reached hG distinct hreached, fun before d d' hb r ha hid hnode minutes hd => ?_⟩
  rcases h.became hb with hb | ⟨-, rfl, rfl⟩
  · have hclock := h.timed.1
    have hdue := helapsed before d d' hb r ha hid hnode minutes hd
    omega
  · -- The step itself is no arrival: the run has been on the node before.
    exact absurd ha (h.effect.not_arrives acyclic distinct (by rwa [hid, hnode]))

/-- A run that comes to a delay waits on it. -/
theorem Ledger.held_of_arrives (acyclic : ∀ id g, G id g → g.Acyclic) (hw : Ledger G w)
    (h : Step env.observed G scope w w') {r : Run} (ha : r.Arrives w.db w'.db) {minutes : Int}
    (hd : r.OnDelay G minutes) : Held G r minutes w' := by
  obtain ⟨hstate, htime, hrecords⟩ := h.of_arrives hw.distinct ha
  refine ⟨htime ▸ Nat.le_refl _, Or.inr ⟨r, ha.mem, rfl, rfl, hd, fun _ hsettled => ?_, ?_⟩⟩
  · -- A trail that tells of the node would be about an earlier stay on it.
    obtain ⟨o, ho, -⟩ := hsettled
    obtain ⟨hmem, hkey⟩ := List.mem_filter.1 ho
    simp only [Bool.and_eq_true, beq_iff_eq] at hkey
    have hreached := hw.reached o (hrecords ▸ hmem)
    rw [hkey.1, hkey.2] at hreached
    exact h.effect.not_arrives acyclic hw.distinct hreached ha
  · simp [hstate]

/-- A run that leaves a delay leaves one that is over. -/
theorem Ledger.onTime (hG : Relator.RightUnique G) (hw : Ledger G w) (hover : Elapsed G ripe w)
    (h : Step env.observed G (.due ripe) w w') {r r' : Run} (hr : r ∈ w.db.runs)
    (hr' : r' ∈ w'.db.runs) (hl : r.Leaves r') : OnTime G w.sightings w.db r r' := by
  intro before e e' hb a ha hid hnode minutes hd
  obtain ⟨hrunning, htime, -, g, hg, hleave⟩ := h.of_leaves hw.distinct hr hr' hl
  have hclock := h.timed.1
  rw [htime]
  obtain ⟨-, hdue | ⟨o, ho, hoid, honode, hwaits⟩⟩ := hw.held before e e' hb a ha minutes hd
  · omega
  · obtain rfl := hw.distinct.eq_of_id_eq ho hr (hoid.trans hid)
    have hcounts := hwaits.elapsed_of_mayLeave hG hrunning hg hleave
    have hdue := (hover _ _ hcounts).2 before e e' hb a ha hid hnode minutes hd
    omega

theorem Ledger.of_step (hG : Relator.RightUnique G) (acyclic : ∀ id g, G id g → g.Acyclic)
    (h : Step env.observed G (.due ripe) w w') (hover : Elapsed G ripe w) (hw : Ledger G w) :
    Ledger G w' := by
  refine ⟨h.effect.nodup_ids hw.distinct, fun o ho => ?_, fun before d d' hb r ha minutes hd => ?_,
    fun before d d' hb r hr r' hr' hl => ?_⟩
  · rcases h.effect.records with heq | ⟨new, heq, r, hr, hrun, hnode, -⟩ <;> rw [heq] at ho
    · exact h.effect.reached hG hw.distinct (hw.reached o ho)
    · rcases List.mem_append.1 ho with ho | ho
      · exact h.effect.reached hG hw.distinct (hw.reached o ho)
      · obtain rfl := List.mem_singleton.1 ho
        exact ⟨r, hr, hrun.symm, fun g _ => hnode ▸ .refl⟩
  · rcases h.became hb with hb | ⟨-, rfl, rfl⟩
    · refine .of_step hG hw.distinct h (fun hcounts => ?_) (hw.held before d d' hb r ha minutes hd)
      exact (hover _ _ hcounts).2 before d d' hb r ha rfl rfl minutes hd
    · exact hw.held_of_arrives acyclic h ha hd
  · rcases h.became hb with hb | ⟨rfl, rfl, rfl⟩
    · exact hw.left before d d' hb r hr r' hr' hl
    · exact hw.onTime hG hover h hr hr' hl

/-- Time may pass between the steps. -/
theorem Ledger.congr (hdb : w'.db = w.db) (hhost : w'.host = w.host)
    (hclock : w.clock.micros ≤ w'.clock.micros) (hw : Ledger G w) : Ledger G w' := by
  have hsightings : w'.sightings = w.sightings := congrArg Prod.snd hhost
  constructor
  · rw [Distinct, hdb]
    exact hw.distinct
  · rw [hdb]
    exact hw.reached
  · rw [hsightings, hdb]
    intro before d d' hb r ha minutes hd
    obtain ⟨hbegun, hheld⟩ := hw.held before d d' hb r ha minutes hd
    refine ⟨hbegun.trans hclock, hheld.imp (fun hdue => by omega) fun hwaits => ?_⟩
    rwa [hdb]
  · rw [hsightings, hdb]
    exact hw.left

end Histories

end CrmAutomation
