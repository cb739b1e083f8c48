import CrmAutomation.Proofs.Engine.Labours

/-!
# Actions that are given up

Whatever a worker does, and wherever the database fails, goes by labours
(`Engine.performAll_labours`): attempts at actions are made only where they are due, and every
record is the next attempt. This keeps the trail in order (`Database.Audited`), so that what is due
was never used up before. The main statement is `performAll_budgeted`: in all databases that there
are the attempts at a node are numbered from one on, no more attempts at an action have failed than
the strategy allows as long as none has succeeded, and once that many have failed its handler is not
called again.
-/

namespace CrmAutomation

variable {σ : Type} {env : Environment σ} {G : String → Graph → Prop} {ds : List Definition}

/-! ## Histories go by labours -/

/-- A node that is executed is worked on by labours, and so is all else. -/
theorem Works.labours {w w' : World σ}
    (h : Works env (fun run g => G run.definition g) w w') :
    Path (Labours env G (env.IsDue G)) w w' := by
  cases h with
  | idle hidle =>
    have unrecorded : ¬Remit.idling.calls .record := fun h => h rfl
    exact .single (.aside ⟨hidle.deed.mono (Remit.within_anything _),
      hidle.deed.records_eq unrecorded, [], by rw [hidle.calls_eq, List.append_nil],
      List.forall_mem_nil _⟩)
  | execute run g node p used stands found =>
    obtain ⟨r, hr, hid, hdefinition, -⟩ := stands
    have hnode : node.id = p.node := (Graph.node?_spec found).2
    exact (Engine.labours_executeNode used (hnode ▸ found) p.resuming p w
      ⟨r, hr, hid, hdefinition⟩).1
  | rest time => exact .single (.rest time)
  | restart => exact .single .restart

namespace Engine

variable {α : Type} {x : Engine σ α}

/-- What keeps the world sound, and neither records nor asks anything, goes by labours. -/
theorem Stays.labours {S : World σ → World σ → Prop} {remit : Remit} (hkept : Stays S (Kept G ds) x)
    (hx : Does env remit x) (unrecorded : ¬remit.calls .record) (silent : Silent x) :
    Stays (Labours env G (env.IsDue G)) (Kept G ds) x := by
  have hpath : Stays (Labours env G (env.IsDue G)) (fun _ => True) x :=
    hx.labours unrecorded silent.asks fun _ _ _ _ => trivial
  exact (hpath.and hkept).conseq (fun _ hw => ⟨trivial, hw⟩) (fun _ _ hw => hw.2) fun _ hw => hw.2

/-- Whatever is done with runs and events goes by labours. -/
theorem serves_labours : Serves env (Labours env G (env.IsDue G)) (Kept G ds) where
  claiming hx silent := by
    have unrecorded : ¬Remit.claiming.calls .record := fun h => h rfl
    exact (hx.stays fun _ _ hdeed => hdeed.kept unrecorded fun _ => id).labours hx unrecorded silent
  walking resuming run := by
    have hwalk : Leads (Works env fun run g => G run.definition g)
        (fun w => Kept G ds w ∧ run ∈ w.db.runs) (walkRun env resuming run) _ _ :=
      works_walkRun (fun _ hg => hg) resuming
    exact ((hwalk.paths fun _ _ => Works.labours).and (leads_walkRun_kept run resuming)).conseq
      (fun _ hw => ⟨hw, hw⟩) (fun _ _ hw => hw.2) fun _ hw => hw.2
  matching e _ := by
    have does : Does env .unrecording (matching env e) :=
      does_matching_of e nofun nofun (fun _ => trivial) fun _ _ _ => trivial
    have hkept : Goes env G .free ds (matching env e) := goes_matching e
    exact Stays.labours hkept does Remit.not_unrecording (silent_matching e)

/-- So it is where a run is started by hand. -/
theorem labours_startManually {d : Definition} (hd : d ∈ ds) (contact : String)
    (payload : Members) :
    Stays (Labours env G (env.IsDue G)) (Kept G ds) (startManually env d contact payload) := by
  refine serves_labours.startManually ?_ (fun contact node event => ?_) contact payload
  · have hgraph : Leads (Step env G .free) (Kept G ds) (usableGraph? d) _ _ := leads_usableGraph hd
    have does : Does env .unrecording (usableGraph? d) := does_usableGraph d trivial
    exact Stays.labours (hgraph.conseq (fun _ hw => hw) (fun _ _ hw => hw.1) fun _ hw => hw.elim)
      does Remit.not_unrecording (silent_usableGraph d)
  · have does : Does env .creating (createRun env d contact node event 0) :=
      does_createRun d contact node event 0 rfl fun _ => rfl
    have unrecorded : ¬Remit.creating.calls .record := nofun
    exact (does.stays fun _ _ hdeed => hdeed.kept unrecorded fun _ => id).labours does unrecorded
      (silent_createRun d contact node event 0)

/-- Whatever a worker does goes by labours. -/
theorem performAll_labours {w : World σ} (kept : Kept G ds w) (ops : List Operation) :
    Path (Labours env G (env.IsDue G)) w (performAll env w ops) := by
  refine (keep_performAll_of (I := fun v => Path (Labours env G (env.IsDue G)) w v ∧ Kept G ds v)
    (fun o v hv => ?_) ops ⟨.refl, kept⟩).1
  refine o.keep_of_serves (serves_labours.along w) ?_ (fun time => ?_) ?_ hv
  · rintro id contact payload rfl
    simp only [Operation.perform]
    split
    · rename_i d hd
      have hmem : d ∈ ds := hv.2.2 ▸ List.mem_of_find?_eq_some hd
      obtain ⟨hpath, hkept⟩ := stays_iff.1 (labours_startManually hmem contact payload) v hv.2
      exact ⟨hv.1.trans hpath, hkept⟩
    · exact hv
  · exact ⟨hv.1.tail (.rest time), hv.2.rest time⟩
  · exact ⟨hv.1.tail .restart, hv.2.restart⟩

end Engine

/-! ## The trail stays in order -/

/-- The trail is in order: every record is about a node in the graph of its run, the attempts at
each node are numbered from one on, and those at an action are within the limit. -/
structure Database.Audited (G : String → Graph → Prop) (limit : Int) (d : Database) : Prop where
  distinct : (d.runs.map (·.id)).Nodup
  attributed : ∀ o ∈ d.records, ∃ r ∈ d.runs, o.run = r.id ∧
    ∃ g n, G r.definition g ∧ g.node? o.node = some n ∧ o.nodeType = n.type.text
  numbered : d.Numbered
  thrifty : d.Thrifty limit

namespace Database.Audited

variable {limit : Int} {d d' : Database} {run : Run} {g : Graph} {node : String} {n : Node}

/-- The records of an action in the graph of a run are about actions. -/
theorem isOfAction (h : d.Audited G limit) (functional : ∀ id g g', G id g → G id g' → g = g')
    (stored : run.Stored d) (hg : G run.definition g) (hn : g.node? node = some n)
    (action : n.type.isAction) : ∀ o ∈ d.recordsOf run.id node, o.IsOfAction := by
  intro o ho
  obtain ⟨hrecord, hkey⟩ := List.mem_filter.1 ho
  obtain ⟨hrun, rfl⟩ : o.run = run.id ∧ o.node = node := by simpa using hkey
  obtain ⟨r, hr, hid, hdefinition⟩ := stored
  obtain ⟨q, hq, hqid, g', n', hg', hn', htype⟩ := h.attributed o hrecord
  obtain rfl : q = r :=
    List.inj_on_of_nodup_map h.distinct hq hr (hqid.symm.trans (hrun.trans hid.symm))
  obtain rfl := functional _ _ _ hg' (hdefinition ▸ hg)
  obtain rfl := Option.some.inj (hn'.symm.trans hn)
  exact ⟨n'.type, action, htype⟩

/-- Rows may be written, as long as none is removed or given to another definition. -/
theorem of_records_eq (h : d.Audited G limit) (distinct : (d'.runs.map (·.id)).Nodup)
    (rows : ∀ r ∈ d.runs, ∃ r' ∈ d'.runs, r'.id = r.id ∧ r'.definition = r.definition)
    (same : d'.records = d.records) : d'.Audited G limit := by
  refine ⟨distinct, fun o ho => ?_, h.numbered.of_prefix (same ▸ List.prefix_rfl),
    h.thrifty.of_prefix (same ▸ List.prefix_rfl)⟩
  obtain ⟨r, hr, hrun, hnode⟩ := h.attributed o (same ▸ ho)
  obtain ⟨r', hr', hid, hdefinition⟩ := rows r hr
  exact ⟨r', hr', hrun.trans hid.symm, hdefinition ▸ hnode⟩

/-- What is granted may be recorded. -/
theorem append (h : d.Audited G limit) {r : NodeRecord} (granted : d.Grants G limit r) :
    { d with records := d.records ++ [r] }.Audited G limit := by
  refine ⟨h.distinct, fun o ho => ?_, h.numbered.append granted.next,
    h.thrifty.append granted.affordable⟩
  rcases List.mem_append.1 ho with ho | ho
  · exact h.attributed o ho
  · exact List.mem_singleton.1 ho ▸ granted.attributed

end Database.Audited

/-- What is granted is granted after others have cancelled runs. -/
theorem Database.Grants.of_concedes {limit : Int} {d d' : Database} {r : NodeRecord}
    (h : d.Grants G limit r) (hd : d.Concedes d') : d'.Grants G limit r := by
  refine ⟨hd.nextAttempt_eq ▸ h.next, ?_, hd.hasSuccess_eq ▸ h.affordable⟩
  obtain ⟨o, ho, hrun, hnode⟩ := h.attributed
  obtain ⟨o', ho', hc⟩ := hd.exists_after ho
  exact ⟨o', ho', hrun.trans hc.id_eq.symm, hc.definition_eq ▸ hnode⟩

theorem Deed.audited {limit : Int} {remit : Remit} {w w' : World σ} (h : Deed env remit w w')
    (same : w'.db.records = w.db.records) (hw : w.db.Audited G limit) : w'.db.Audited G limit :=
  hw.of_records_eq (h.distinct hw.distinct) (fun _ => h.exists_after) same

/-- The trail was in order in all databases that there were, and nothing was taken out of it. -/
structure Inspected (G : String → Graph → Prop) (limit : Int) (w : World (σ × List Sighting)) :
    Prop where
  audited : ∀ d ∈ w.trace, d.Audited G limit
  prefixes : ∀ d ∈ w.trace, d.records <+: w.db.records

/-- In none of the databases that there were the attempts at the node of the run were used up. -/
def Unexhausted (limit : Int) (run : Run) (node : Node) (w : World (σ × List Sighting)) : Prop :=
  ∀ d ∈ w.trace, ¬d.UsedUp limit run.id node.id

namespace Inspected

variable {limit : Int} {w w' : World (σ × List Sighting)}

theorem congr (h : Inspected G limit w) (hdb : w'.db = w.db) (hhost : w'.host = w.host) :
    Inspected G limit w' := by
  have same := World.trace_congr hdb hhost
  exact ⟨same ▸ h.audited, by rw [same, hdb]; exact h.prefixes⟩

theorem of_deed {remit : Remit} (h : Inspected G limit w) (hdeed : Deed env.observed remit w w')
    (audited : w'.db.Audited G limit) : Inspected G limit w' := by
  refine ⟨hdeed.forall_trace (fun _ => audited) h.audited, fun d hd => ?_⟩
  rcases hdeed.trace with ⟨htrace, -⟩ | htrace <;> rw [htrace] at hd
  · exact (h.prefixes d hd).trans hdeed.records_prefix
  · rcases List.mem_append.1 hd with hd | hd
    · exact (h.prefixes d hd).trans hdeed.records_prefix
    · exact List.mem_singleton.1 hd ▸ List.prefix_rfl

theorem of_labours {due : Run → Node → World (σ × List Sighting) → Prop}
    (h : Inspected G env.rules.strategy.maxAttempts w) (hw : Labours env.observed G due w w') :
    Inspected G env.rules.strategy.maxAttempts w' := by
  cases hw with
  | aside haside =>
    exact h.of_deed haside.deed (haside.deed.audited haside.records_eq (h.audited _ w.db_mem_trace))
  | attempt run node number =>
    have does : Engine.Does env.observed .unrecording
        (Engine.attemptAction env.observed run node number) :=
      Engine.does_attemptAction run node number nofun
    refine (does.path w).keep (fun v v' hdeed hv => hv.of_deed hdeed ?_) h
    exact hdeed.audited (hdeed.records_eq Remit.not_unrecording) (hv.audited _ v.db_mem_trace)
  | record r granted =>
    have conceded := w.concedes_interrupted env.observed .record
    have hdeed : Deed env.observed .anything w ((w.interrupted env.observed .record).recorded r) :=
      .record r trivial
    refine h.of_deed hdeed (Database.Audited.append ?_ (granted.of_concedes conceded))
    have interrupt : Deed env.observed .anything w (w.interrupted env.observed .record) :=
      .interrupt .record trivial
    exact interrupt.audited conceded.records_eq (h.audited _ w.db_mem_trace)
  | rest => exact h.congr rfl rfl
  | restart => exact h.congr rfl rfl

/-- What is due was never used up. -/
theorem unexhausted {run : Run} {node : Node} (h : Inspected G limit w)
    (functional : ∀ id g g', G id g → G id g' → g = g') (due : Due G limit run node w.db) :
    Unexhausted limit run node w := by
  intro d hd
  have audited := h.audited _ w.db_mem_trace
  obtain ⟨g, hg, hn⟩ := due.placed
  exact Database.not_usedUp_of_prefix audited.numbered audited.thrifty
    (audited.isOfAction functional due.stored hg hn due.action) due.affordable (h.prefixes d hd)

end Inspected

/-! ## Budgets -/

/-- What the trail tells of attempts throughout a history. -/
structure Budgeted (limit : Int) (w : World (σ × List Sighting)) : Prop where
  /-- The attempts at each node of each run are numbered from one on, in the order in which they
  were recorded. -/
  numbered : ∀ d ∈ w.trace, ∀ run node, ∃ k,
    (d.recordsOf run node).map (·.attempt) = Database.attemptsTo k
  /-- As long as an action of a run has not succeeded, no more of its attempts have failed than are
  allowed. -/
  failed_le : ∀ d ∈ w.trace, ∀ r ∈ d.runs, ∀ g node n, d.HasGraph r.definition g →
    g.node? node = some n → n.type.isAction → d.hasSuccess r.id node = false →
    ((d.failedAt r.id node).length : Int) ≤ limit

theorem RetryStrategy.one_le_maxAttempts_ofSettings (maxAttempts : Int) (base longest : Double) :
    1 ≤ (ofSettings maxAttempts base longest).maxAttempts := by
  unfold ofSettings
  split
  · exact Int.le_refl 1
  · rename_i h
    exact Int.le_of_lt (Int.not_le.1 h)

/-- Whatever a worker does, whatever the services answer and wherever the database fails, with a
strategy that is made from settings: the attempts at each node of each run are recorded as attempt
one, two, and so on; as long as an action of a run has not succeeded, no more of its attempts have
failed than the strategy allows; and once that many have failed, the action is not attempted again.
The history goes by labours, so handlers are called in attempts only, and an attempt is made only at
an action that was used up in none of the databases that there were until then. -/
theorem performAll_budgeted (env : Environment σ) (maxAttempts : Int) (base longest : Double)
    (settings : env.rules.strategy = .ofSettings maxAttempts base longest)
    (w : World (σ × List Sighting)) (pristine : w.Pristine) (ops : List Operation) :
    Budgeted env.rules.strategy.maxAttempts (performAll env.observed w ops) ∧
    Path (Labours env.observed w.db.HasGraph (Unexhausted env.rules.strategy.maxAttempts)) w
      (performAll env.observed w ops) := by
  have functional : ∀ id g g', w.db.HasGraph id g → w.db.HasGraph id g' → g = g' :=
    fun _ _ _ hg hg' => Option.some.inj (hg.symm.trans hg')
  have nonneg : 0 ≤ env.rules.strategy.maxAttempts := by
    have := RetryStrategy.one_le_maxAttempts_ofSettings maxAttempts base longest
    rw [settings]
    omega
  have start : Inspected w.db.HasGraph env.rules.strategy.maxAttempts w := by
    constructor <;> rw [pristine.trace_eq] <;> simp only [List.forall_mem_singleton]
    · exact ⟨by simp [pristine.runs], by simp [pristine.records],
        .of_records_eq_nil pristine.records, .of_records_eq_nil pristine.records⟩
    · exact List.prefix_rfl
  have hpath : Path (Labours env.observed w.db.HasGraph (env.observed.IsDue w.db.HasGraph)) w
      (performAll env.observed w ops) := Engine.performAll_labours pristine.kept ops
  have step (v v' : World (σ × List Sighting))
      (hstep : Labours env.observed w.db.HasGraph (env.observed.IsDue w.db.HasGraph) v v')
      (hv : Inspected w.db.HasGraph env.rules.strategy.maxAttempts v) :
      Labours env.observed w.db.HasGraph (Unexhausted env.rules.strategy.maxAttempts) v v' ∧
        Inspected w.db.HasGraph env.rules.strategy.maxAttempts v' :=
    ⟨hstep.imp fun _ _ => hv.unexhausted functional, hv.of_labours hstep⟩
  obtain ⟨hpath', hlast⟩ := hpath.keep_steps step start
  refine ⟨⟨fun d hd run node => ⟨_, (hlast.audited d hd).numbered run node⟩,
    fun d hd r hr g node n hg hn action unsuccessful => ?_⟩, hpath'⟩
  have audited := hlast.audited d hd
  rw [(pristine.chronicle ops).graphs d hd] at hg
  exact audited.thrifty.length_failedAt_le audited.numbered nonneg
    (audited.isOfAction functional ⟨r, hr, rfl, rfl⟩ hg hn action) unsuccessful

/-- Mails may be tried twice and are never answered; the database fails the first times that a run
is to be ended. -/
def unanswered : Environment Nat where
  host := { troubled.host with
    service := fun call _ n => match call with
      | .getContact .. => (⟨[], .value (some greeted)⟩, n)
      | _ => (⟨[], .silence⟩, n) }
  rules := { troubled.rules with strategy := .ofSettings 2 (.ofInt 2) (.ofInt 60) }

/-- A run that cannot be ended when its mail was tried twice is failed when it is executed again,
and nothing more is sent. -/
theorem performAll_budgeted_of_unanswered :
    unanswered.rules.strategy = .ofSettings 2 (.ofInt 2) (.ofInt 60) ∧ opening.Pristine ∧
    (let w := performAll unanswered.observed opening recovery
    Budgeted 2 w ∧
    Path (Labours unanswered.observed opening.db.HasGraph (Unexhausted 2)) opening w ∧
    (w.db.recordsOf "run-1" "mail").map (fun o => (o.attempt, o.outcome)) =
      [(1, .failed), (2, .failed)] ∧
    w.db.runs.map (fun r => r.state) = [.failed] ∧
    (w.calls.filterMap ServiceCall.key?) = ["run-1:mail", "run-1:mail"]) := by
  obtain ⟨budgeted, path⟩ := performAll_budgeted unanswered 2 (.ofInt 2) (.ofInt 60) rfl opening
    pristine_opening recovery
  exact ⟨rfl, pristine_opening, budgeted, path, by decide +kernel, by decide +kernel,
    by decide +kernel⟩

end CrmAutomation
