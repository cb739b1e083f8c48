import CrmAutomation.Proofs.Engine.History

/-!
# Outcomes and progress

A run leaves a node when it is moved on or completed (`Run.Leaves`), and before that the outcome of
the node is recorded: conditions and actions are settled whenever they are left, whatever fails and
wherever a worker is interrupted. A delay suspends its run first and is recorded afterwards. So a
delay is left without a record if that record failed and the run is resumed all the same; every
other delay is settled, too (`performAll_recorded`).
-/

namespace CrmAutomation

variable {σ : Type} {G : String → Graph → Prop} {scope : Scope} {d d₁ d' : Database}

/-! ## Leaving a node -/

/-- A run goes from its node to another one, or is completed on it. -/
structure Run.Leaves (r r' : Run) : Prop where
  id_eq : r'.id = r.id
  left : r'.node ≠ r.node ∨ r'.state = .completed ∧ r.state ≠ .completed

namespace Run.Leaves

variable {r r₁ r' : Run}

theorem not_stay (hnode : r'.node = r.node)
    (hstate : r'.state = .completed → r.state = .completed) : ¬r.Leaves r' := by
  rintro ⟨-, h | ⟨h, h'⟩⟩
  · exact h hnode
  · exact h' (hstate h)

theorem not_conceded (h : r.Conceded r') : ¬r.Leaves r' :=
  not_stay h.node_eq fun hstate => by
    rcases h.state_eq with heq | heq
    · rwa [← heq]
    · simp [heq] at hstate

/-- A run that leaves its node after others had a chance to cancel it leaves it all the same. -/
theorem of_conceded (hr : r.Conceded r₁) (h : r.Leaves r') : r₁.Leaves r' := by
  refine ⟨h.id_eq.trans hr.id_eq.symm, h.left.imp (fun hnode => by rwa [hr.node_eq]) ?_⟩
  rintro ⟨hstate, hopen⟩
  refine ⟨hstate, ?_⟩
  rcases hr.state_eq with heq | heq
  · rwa [heq]
  · simp [heq]

end Run.Leaves

/-- A row that was written is the row of the run that was to be written. -/
theorem Database.eq_or_of_mem_updateRun {id : String} {guard : Run → Bool} {change : Run → Run}
    {r r' : Run} (distinct : (d.runs.map (·.id)).Nodup) (hr : r ∈ d.runs)
    (hr' : r' ∈ (d.updateRun id guard change).2.runs) (hid : r'.id = r.id)
    (hchange : ∀ o, (change o).id = o.id) :
    r' = r ∨ r.id = id ∧ guard r ∧ r' = change r := by
  obtain ⟨o, ho, rfl | ⟨hoid, hguard, rfl⟩⟩ := Database.exists_of_mem_updateRun hr'
  · exact Or.inl (List.inj_on_of_nodup_map distinct ho hr hid)
  · obtain rfl := List.inj_on_of_nodup_map distinct ho hr ((hchange o).symm.trans hid)
    exact Or.inr ⟨hoid, hguard, rfl⟩

/-- A command by which a run leaves its node finds it running on a node that may be left. -/
theorem RunCommand.of_leaves {c : RunCommand} {now : Instant} {r r' : Run}
    (allowed : c.Allowed G scope d) (distinct : (d.runs.map (·.id)).Nodup) (hr : r ∈ d.runs)
    (hr' : r' ∈ (c.perform now d).runs) (h : r.Leaves r') :
    r.state = .running ∧ r'.updatedAt = now ∧ (r'.node ≠ r.node → r'.state = .running) ∧
      ∃ g, G r.definition g ∧ g.MayLeave scope d r := by
  have hwritten : ∀ {id : String} {guard : Run → Bool} {change : Run → Run},
      r' ∈ (d.updateRun id guard change).2.runs → (∀ o, (change o).id = o.id) →
      r.id = id ∧ guard r ∧ r' = change r := fun hmem hchange =>
    (Database.eq_or_of_mem_updateRun distinct hr hmem h.id_eq hchange).resolve_left
      fun heq => Run.Leaves.not_stay (congrArg _ heq) (heq ▸ id) h
  -- Only moves and completions leave a node; the other commands write nothing that would.
  cases c with
  | create id definition contact node event chainDepth =>
    simp only [perform, Database.createRun] at hr'
    split at hr'
    · obtain rfl := List.inj_on_of_nodup_map distinct hr' hr h.id_eq
      exact absurd h (Run.Leaves.not_stay rfl fun h => h)
    · rename_i free
      rcases List.mem_append.1 hr' with hr' | hr'
      · obtain rfl := List.inj_on_of_nodup_map distinct hr' hr h.id_eq
        exact absurd h (Run.Leaves.not_stay rfl fun h => h)
      · obtain rfl := List.mem_singleton.1 hr'
        simp only [List.any_eq_true, Bool.or_eq_true, beq_iff_eq, not_exists, not_and, not_or]
          at free
        exact absurd h.id_eq.symm (free r hr).1
  | moveTo run node =>
    obtain ⟨hid, hguard, rfl⟩ := hwritten hr' fun _ => rfl
    obtain ⟨g, hg, -, hleave⟩ := allowed r hr hid
    have hrunning := running_of_isRunning hguard
    exact ⟨hrunning, rfl, fun _ => hrunning, g, hg, hleave⟩
  | complete run =>
    obtain ⟨hid, hguard, rfl⟩ := hwritten hr' fun _ => rfl
    obtain ⟨g, hg, -, hleave⟩ := allowed r hr hid
    exact ⟨running_of_isRunning hguard, rfl, fun hnode => absurd rfl hnode, g, hg, hleave⟩
  | suspend run node resumeAt =>
    obtain ⟨hid, hguard, rfl⟩ := hwritten hr' fun _ => rfl
    exact absurd h (Run.Leaves.not_stay (allowed r hr hid).symm (by simp))
  | claimStale c =>
    obtain ⟨-, -, rfl⟩ := hwritten hr' fun _ => rfl
    exact absurd h (Run.Leaves.not_stay rfl fun h => h)
  | fail | cancel | claimSuspended | release =>
    obtain ⟨-, -, rfl⟩ := hwritten hr' fun _ => rfl
    exact absurd h (Run.Leaves.not_stay rfl (by simp [Database.ended]))

/-- Rows that were at most cancelled have not left their nodes. -/
theorem Database.Concedes.not_leaves {r r' : Run} (h : d.Concedes d')
    (distinct : (d.runs.map (·.id)).Nodup) (hr : r ∈ d.runs) (hr' : r' ∈ d'.runs) :
    ¬r.Leaves r' := by
  intro hl
  obtain ⟨o, ho, hc⟩ := h.exists_before hr'
  obtain rfl := List.inj_on_of_nodup_map distinct ho hr (hc.id_eq.symm.trans hl.id_eq)
  exact Run.Leaves.not_conceded hc hl

/-- A step by which a run leaves its node finds it running on a node that may be left, and is the
last thing that was done to it. -/
theorem Step.of_leaves {env : Environment σ} {w w' : World σ} {r r' : Run}
    (h : Step env G scope w w') (distinct : Distinct w) (hr : r ∈ w.db.runs)
    (hr' : r' ∈ w'.db.runs) (hl : r.Leaves r') :
    r.state = .running ∧ r'.updatedAt = w'.clock ∧ (r'.node ≠ r.node → r'.state = .running) ∧
      ∃ g, G r.definition g ∧ g.MayLeave scope w.db r := by
  obtain ⟨-, conceded | ⟨d, c, conceded, allowed, -, heq⟩ | ⟨d, o, conceded, -, heq⟩⟩ := h.timed
  · exact absurd hl (conceded.not_leaves distinct hr hr')
  · obtain ⟨r₁, hr₁, hc⟩ := conceded.exists_after hr
    obtain ⟨hrunning, htime, hmoved, g, hg, hleave⟩ :=
      c.of_leaves allowed (by rwa [conceded.ids_eq]) hr₁ (heq ▸ hr') (hl.of_conceded hc)
    refine ⟨?_, htime, hc.node_eq ▸ hmoved, g, hc.definition_eq ▸ hg,
      (Graph.MayLeave.of_concedes conceded hc).1 hleave⟩
    rcases hc.state_eq with h | h
    · rwa [← h]
    · simp [h] at hrunning
  · rw [heq] at hr'
    exact absurd hl (conceded.not_leaves distinct hr hr')

/-! ## Resumed runs -/

/-- A run was to be resumed when it was running on the node. -/
def Resumed (seen : List Sighting) (run node : String) : Prop :=
  ∃ s ∈ seen, s.occasion = .storage .resume ∧
    ∃ r ∈ s.db.runs, r.id = run ∧ r.node = node ∧ r.state = .running

theorem Resumed.mono {seen seen' : List Sighting} {run node : String} (h : seen <+: seen')
    (hs : Resumed seen run node) : Resumed seen' run node := by
  obtain ⟨s, hmem, hrest⟩ := hs
  exact ⟨s, h.subset hmem, hrest⟩

/-- No run leaves its node but one that may; a delay counts as over where its run was resumed. -/
structure Orderly (G : String → Graph → Prop) (w : World (σ × List Sighting)) : Prop where
  distinct : Distinct w
  left : ∀ before d d', Became w.sightings w.db before d d' → ∀ r ∈ d.runs, ∀ r' ∈ d'.runs,
    r.Leaves r' → ∃ g, G r.definition g ∧ g.MayLeave ⟨fun _ _ => True, Resumed before⟩ d r

section Steps

variable {env : Environment σ} {ds : List Definition} {w w' : World (σ × List Sighting)}

/-- The scope of a computation that goes by what was seen of resumed runs. -/
def Scope.resuming (seen : List Sighting) : Scope where
  outside _ _ := True
  elapsed := Resumed seen

theorem Orderly.of_step {seen : List Sighting} (h : Step env.observed G (.resuming seen) w w')
    (hseen : seen <+: w.sightings) (hw : Orderly G w) : Orderly G w' := by
  refine ⟨h.effect.nodup_ids hw.distinct, fun before d d' hb r hr r' hr' hl => ?_⟩
  rcases h.became hb with hb | ⟨rfl, rfl, rfl⟩
  · exact hw.left before d d' hb r hr r' hr' hl
  · obtain ⟨-, -, -, g, hg, hleave⟩ := h.of_leaves hw.distinct hr hr' hl
    refine ⟨g, hg, fun n hn htype => (hleave n hn htype).imp_right fun hover => ?_⟩
    exact ⟨hover.1, hover.2.mono hseen⟩

theorem Orderly.congr (hdb : w'.db = w.db) (hhost : w'.host = w.host) (hw : Orderly G w) :
    Orderly G w' := by
  have hsightings : w'.sightings = w.sightings := congrArg Prod.snd hhost
  refine ⟨?_, ?_⟩
  · rw [Distinct, hdb]
    exact hw.distinct
  · rw [hsightings, hdb]
    exact hw.left

/-! ## Operations -/

namespace Engine

/-- A computation that keeps the tables and the history in order. -/
abbrev StaysOrderly {α : Type} (G : String → Graph → Prop) (ds : List Definition)
    (x : Engine (σ × List Sighting) α) : Prop :=
  Stays (fun _ _ => True) (fun w => Kept G ds w ∧ Orderly G w) x

/-- Computations that resume no run keep order. -/
theorem Goes.staysOrderly {α : Type} {x : Engine (σ × List Sighting) α}
    (hx : Goes env.observed G (.resuming []) ds x) : StaysOrderly G ds x :=
  hx.stays fun _ _ h => Orderly.of_step h List.nil_prefix

theorem leads_found (id : String) (seen : List Sighting) :
    Leads (Step env.observed G (.resuming seen))
      (fun w => Kept G ds w ∧ Over (.resuming seen) id w)
      (runFound env.observed (routeFollowUps env.observed) true id) (fun _ => Kept G ds)
      (Kept G ds) :=
  (leads_runFound goes_routeFollowUps true id).conseq (fun _ hw => ⟨hw.1, fun _ => hw.2⟩)
    (fun _ _ hw => hw) fun _ hw => hw.1

/-- Where a run is resumed it is seen on its node, so it may leave it. -/
theorem staysOrderly_resume (id : String) : StaysOrderly G ds (resume env.observed id) := by
  refine stays_iff.2 fun w hw => ⟨.single trivial, ?_⟩
  have hstep : Step env.observed G (.resuming []) w (w.interrupted env.observed .resume) :=
    .interrupt .resume
  have hread : Kept G ds (w.interrupted env.observed .resume) ∧
      Orderly G (w.interrupted env.observed .resume) :=
    ⟨kept_of_step hstep hw.1, hw.2.of_step hstep List.nil_prefix⟩
  have hover : Over (.resuming (w.interrupted env.observed .resume).sightings) id
      (w.interrupted env.observed .resume) := by
    intro r hr hid hrunning
    obtain ⟨o, ho, rfl | ⟨-, time, rfl⟩⟩ :=
      (w.concedes_interrupted env.observed .resume).exists_before hr
    · exact ⟨⟨.storage .resume, w.db⟩, List.mem_append_right _ List.mem_cons_self, rfl, r, ho, rfl,
        rfl, hrunning⟩
    · cases hrunning
  change Kept G ds ((runFrom env.observed _ true id).run w).2 ∧
    Orderly G ((runFrom env.observed _ true id).run w).2
  rw [runFrom_eq, if_pos rfl, run_interrupt_bind]
  split
  · exact hread
  · obtain ⟨hpath, hend⟩ := leads_found id _ _ ⟨hread.1, hover⟩
    refine ⟨?_, ?_⟩
    · split at hend <;> exact hend
    · refine (Path.keep (I := fun w' => (w.interrupted env.observed .resume).sightings <+:
        w'.sightings ∧ Orderly G w') hpath (fun a b h hab => ?_) ⟨List.prefix_rfl, hread.2⟩).2
      exact ⟨hab.1.trans h.sightings_prefix, hab.2.of_step h hab.1⟩

theorem staysOrderly_sweepAt (time : Instant) :
    StaysOrderly G ds (sweepAt env.observed time) :=
  stays_sweepAt (fun limit => (goes_dueRuns time limit).staysOrderly)
    (fun c => (goes_claimSuspended c fun _ => trivial).staysOrderly) staysOrderly_resume
    (fun c => (goes_release c time fun _ => trivial).staysOrderly)
    fun r => (goes_recoverStale (fun _ _ => trivial) time r).staysOrderly

theorem staysOrderly_sweep : StaysOrderly G ds (sweep env.observed) := by
  have hnow : Goes env.observed G (.resuming []) ds now := .of_keeps keeps_now
  exact .bind hnow.staysOrderly fun time => staysOrderly_sweepAt time

end Engine

theorem Operation.keep_orderly (o : Operation) (hw : Kept G ds w ∧ Orderly G w) :
    Kept G ds (o.perform env.observed w) ∧ Orderly G (o.perform env.observed w) := by
  cases o with
  | resume run => exact (Engine.stays_iff.1 (Engine.staysOrderly_resume run) w hw).2
  | sweep => exact (Engine.stays_iff.1 Engine.staysOrderly_sweep w hw).2
  | sweepAt time => exact (Engine.stays_iff.1 (Engine.staysOrderly_sweepAt time) w hw).2
  | rest time => exact ⟨hw.1.rest time, .congr (w := w) rfl rfl hw.2⟩
  | restart => exact ⟨hw.1.restart, .congr (w := w) rfl rfl hw.2⟩
  | event | start | advance | recover | cancel =>
    have hstep : ∀ w w', Step env.observed G (.resuming []) w w' → Orderly G w → Orderly G w' :=
      fun _ _ h => .of_step h List.nil_prefix
    refine keep_of_isPlain hstep (fun _ _ => trivial) (fun _ _ => trivial) ?_ hw
    trivial

end Steps

/-! ## Histories -/

/-- What is recorded in a history when runs leave their nodes. -/
structure Recorded (w : World (σ × List Sighting)) : Prop where
  /-- A run leaves a condition or an action only when it is settled; so it does with a delay, unless
  it was to be resumed when it was running on the delay and the delay was not settled. -/
  left : ∀ before d d', Became w.sightings w.db before d d' → ∀ r ∈ d.runs, ∀ r' ∈ d'.runs,
    r.Leaves r' → ∀ g n, d.HasGraph r.definition g → g.node? r.node = some n →
    n.type ≠ .trigger → d.Settled r.id r.node ∨
      n.type = .delay ∧ ∃ s ∈ before, s.occasion = .storage .resume ∧
        ¬s.db.Settled r.id r.node ∧ ∃ q ∈ s.db.runs, q.id = r.id ∧ q.node = r.node ∧
          q.state = .running
  /-- A node that is settled stays settled. -/
  lasting : w.trace.Pairwise fun d e => ∀ run node, d.Settled run node → e.Settled run node

/-- Whatever a worker does and whatever fails, the outcome of a node is recorded before a run leaves
it, and for good; but a delay of which the record failed is left when the run is resumed. -/
theorem performAll_recorded (env : Environment σ) (w : World (σ × List Sighting))
    (pristine : w.Pristine) (ops : List Operation) :
    Recorded (performAll env.observed w ops) := by
  have hhistory : Chronicle w.db.HasGraph (performAll env.observed w ops) := pristine.chronicle ops
  have horderly : Orderly w.db.HasGraph (performAll env.observed w ops) := by
    refine (keep_performAll_of (I := fun v => Kept _ w.db.definitions v ∧ Orderly w.db.HasGraph v)
      (fun o _ => o.keep_orderly) ops ⟨pristine.kept, ?_, ?_⟩).2
    · simp [Distinct, pristine.runs]
    · exact fun before d d' hb => absurd hb pristine.not_became
  refine ⟨fun before d d' hb r hr r' hr' hl g n hg hn htype => ?_,
    hhistory.pairwise_records.imp fun h _ _ => .mono h⟩
  obtain ⟨g', hg', hleave⟩ := horderly.left before d d' hb r hr r' hr' hl
  rw [hhistory.hasGraph_eq hb] at hg
  obtain rfl : g' = g := Option.some.inj (hg'.symm.trans hg)
  by_cases hsettled : d.Settled r.id r.node
  · exact Or.inl hsettled
  · obtain ⟨hdelay, s, hs, hresume, hrunning⟩ := (hleave n hn htype).resolve_left hsettled
    have hrecords : s.db.records <+: d.records := by
      obtain ⟨after, htrace⟩ := hb.trace_eq
      have hpairwise := hhistory.pairwise_records
      rw [htrace] at hpairwise
      exact (List.pairwise_append.1 hpairwise).2.2 _ (List.mem_map_of_mem hs) d
        List.mem_cons_self
    exact Or.inr ⟨hdelay, s, hs, hresume, fun h => hsettled (h.mono hrecords), hrunning⟩

/-! ## A delay without a record -/

/-- A new contact gets a tag, after a short delay and a long one. -/
def reminder : Definition :=
  { (default : Definition) with
    id := "reminder-1"
    workflow := "reminder"
    version := 1
    graph := .obj [
      ("nodes", .list [
        .obj [("id", .str "start"), ("type", .str "trigger"),
          ("data", .obj [("triggerType", .str "contact_created")])],
        .obj [("id", .str "short"), ("type", .str "delay"),
          ("data", .obj [("config", .obj [("duration_minutes", .int 10)])])],
        .obj [("id", .str "long"), ("type", .str "delay"),
          ("data", .obj [("config", .obj [("duration_minutes", .int 60)])])],
        .obj [("id", .str "tag"), ("type", .str "add_tag"),
          ("data", .obj [("config", .obj [("tag_id", .str "t-1")])])]]),
      ("edges", .list [
        .obj [("source", .str "start"), ("target", .str "short")],
        .obj [("source", .str "short"), ("target", .str "long")],
        .obj [("source", .str "long"), ("target", .str "tag")]])] }

/-- The services answer, and the calls to the database, which are counted from zero, fail where they
are said to. -/
def faulty (fails : StorageCall → Nat → Bool) : Environment Nat where
  host := {
    freshId := fun _ _ n => ("run-1", n)
    draw := fun n => (.zero, n)
    storage := fun call _ n =>
      (⟨[], if fails call n then some (.system .operational "") else none⟩, n + 1)
    service := fun call _ n => match call with
      | .getContact .. => (⟨[], .value (some greeted)⟩, n)
      | .addTag .. => (⟨[], .value ()⟩, n)
      | _ => (⟨[], .silence⟩, n)
    wait := fun _ _ n => ([], n) }
  rules := troubled.rules

/-- Nothing has happened yet, and the contact is to be reminded. -/
def morning : World (Nat × List Sighting) where
  db := { Database.empty with definitions := [reminder] }
  clock := ⟨0⟩
  graphs := []
  turns := []
  calls := []
  waits := []
  host := (0, [])

theorem pristine_morning : morning.Pristine := by
  constructor
  · decide
  all_goals rfl

/-- So many minutes after the beginning. -/
def minute (n : Nat) : Instant := ⟨n * Instant.microsPerMinute⟩

/-- Where the run stood in a history, and in which state. -/
def World.stations (w : World (Nat × List Sighting)) : List (List (String × RunState)) :=
  (w.trace.map fun d => d.runs.map fun r => (r.node, r.state)).destutter (· ≠ ·)

/-- A run that cannot be moved on from a delay, nor failed, is handed back and resumed again. The
delay was recorded when the run was suspended, so it is settled when it is left. -/
theorem performAll_recorded_of_handed_back :
    morning.Pristine ∧
    let w := performAll (faulty fun _ n => n == 15 || n == 16).observed morning
      [.start "reminder-1" "c-1" [], .rest (minute 11), .sweep, .rest (minute 12), .sweep]
    Recorded w ∧
    w.stations = [[], [("start", .running)], [("short", .running)], [("short", .suspended)],
      [("short", .running)], [("short", .suspended)], [("short", .running)], [("long", .running)],
      [("long", .suspended)]] ∧
    w.db.records.map (fun r => (r.node, r.outcome)) = [("short", .success), ("long", .success)] :=
  ⟨pristine_morning, performAll_recorded _ morning pristine_morning _, by decide +kernel,
    by decide +kernel⟩

/-- Where the record of a delay fails, the run rests on it all the same, and is moved on from there
when it is resumed: the delay is left for good and nothing was recorded of it. -/
theorem delay_left_unrecorded :
    let w := performAll (faulty fun _ n => n == 9).observed morning
      [.start "reminder-1" "c-1" [], .rest (minute 11), .sweep]
    w.stations = [[], [("start", .running)], [("short", .running)], [("short", .suspended)],
      [("short", .running)], [("long", .running)], [("long", .suspended)]] ∧
    w.db.recordsOf "run-1" "short" = [] ∧
    w.db.records.map (fun r => (r.node, r.outcome)) = [("long", .success)] := by
  refine ⟨by decide +kernel, ?_, by decide +kernel⟩
  exact List.eq_nil_of_length_eq_zero (by decide +kernel)

end CrmAutomation
