import CrmAutomation.Proofs.Engine.Asking
import CrmAutomation.Proofs.Engine.History

/-!
# What is sent, and how often

A mail and a webhook carry a key that is made of the run and the node, so the receiver knows what it
got before; and the engine looks into the trail before it sends. `Delivered` says what comes of it
in a history: nothing is sent for a node of a run once the trail holds a success of it, a sending
node of a run has at most one success, and no two nodes of runs share a key. It holds of every
history (`performAll_delivered`), also where the database failed after something was sent or
recorded, because each of the three is kept by every step (`Accounted`).

A run is known from the key only if no run id has a colon (`Host.Plain`).
-/

namespace CrmAutomation

variable {σ : Type} {env : Environment σ} {G : String → Graph → Prop} {scope : Scope}
  {d d' : Database}

/-- A host that makes up ids of runs without a colon. -/
def Host.Plain (host : Host σ) : Prop := ∀ db s, ':' ∉ (host.freshId .run db s).1.toList

/-! ## Successes -/

theorem NodeType.text_inj {s t : NodeType} (h : s.text = t.text) : s = t :=
  Option.some.inj ((ofText?_text s).symm.trans ((congrArg ofText? h).trans (ofText?_text t)))

namespace Database

theorem hasSuccess_iff {run node : String} :
    d.hasSuccess run node ↔
      ∃ o ∈ d.records, o.run = run ∧ o.node = node ∧ o.outcome = .success := by
  simp [hasSuccess, recordsOf, and_assoc]

theorem hasSuccess_of_prefix {run node : String} (h : d.records <+: d'.records)
    (hd : d.hasSuccess run node) : d'.hasSuccess run node := by
  obtain ⟨o, ho, hrest⟩ := hasSuccess_iff.1 hd
  exact hasSuccess_iff.2 ⟨o, h.subset ho, hrest⟩

end Database

/-! ## What every step keeps -/

/-- A later attempt at the same node does not succeed again if the node sends. -/
def NodeRecord.Once (a b : NodeRecord) : Prop :=
  a.run = b.run → a.node = b.node → (∃ t : NodeType, t.isSending ∧ b.nodeType = t.text) →
    a.outcome = .success → b.outcome ≠ .success

/-- The tables agree on who sent what: run ids have no colon, every record is about a node of the
graph of its run, and a sending node succeeds once. -/
structure Accounted (G : String → Graph → Prop) (d : Database) : Prop where
  plain : ∀ id ∈ d.runs.map (·.id), ':' ∉ id.toList
  attributed : ∀ o ∈ d.records, ∃ r ∈ d.runs, o.run = r.id ∧
    ∃ g n, G r.definition g ∧ g.node? o.node = some n ∧ o.nodeType = n.type.text
  once : d.records.Pairwise NodeRecord.Once

theorem RunCommand.ids_perform {c : RunCommand} {now : Instant} (old : c.isCreate = false) :
    (c.perform now d).runs.map (·.id) = d.runs.map (·.id) := by
  cases c with
  | create => cases old
  | moveTo | suspend | complete | fail | cancel | claimSuspended | release | claimStale =>
    exact Database.ids_updateRun fun _ => rfl

/-- The id of a row that was not there before is one that the host made up. -/
theorem plain_of_step (plain : env.host.Plain) {w w' : World (σ × List Sighting)}
    (h : Step env.observed G scope w w') (hw : ∀ id ∈ w.db.runs.map (·.id), ':' ∉ id.toList) :
    ∀ id ∈ w'.db.runs.map (·.id), ':' ∉ id.toList := by
  have hconceded : ∀ {d : Database}, w.db.Concedes d → ∀ id ∈ d.runs.map (·.id), ':' ∉ id.toList :=
    fun hd => by rwa [hd.ids_eq]
  cases h with
  | tick | name | draw | remember | turn => exact hw
  | wait delay => exact hconceded (w.concedes_waited env.observed delay)
  | interrupt call => exact hconceded (w.concedes_interrupted env.observed call)
  | serve call => exact hconceded (w.concedes_served env.observed call)
  | record =>
    exact hconceded (d := (w.interrupted env.observed .record).db) (w.concedes_interrupted _ _)
  | command call c old =>
    rw [World.commanded, c.ids_perform old]
    exact hconceded (w.concedes_interrupted env.observed call)
  | create d contact node event chainDepth =>
    simp only [World.commanded, RunCommand.perform, Database.createRun]
    split
    · exact hw
    · intro id hid
      simp only [List.map_append, List.mem_append] at hid
      rcases hid with hid | hid
      · exact hw id hid
      · obtain rfl := List.mem_singleton.1 hid
        exact plain w.db w.host.1

theorem attributed_of_effect (h : d.Effect G scope d')
    (hd : ∀ o ∈ d.records, ∃ r ∈ d.runs, o.run = r.id ∧
      ∃ g n, G r.definition g ∧ g.node? o.node = some n ∧ o.nodeType = n.type.text) :
    ∀ o ∈ d'.records, ∃ r ∈ d'.runs, o.run = r.id ∧
      ∃ g n, G r.definition g ∧ g.node? o.node = some n ∧ o.nodeType = n.type.text := by
  have hkept : ∀ o ∈ d.records, ∃ r ∈ d'.runs, o.run = r.id ∧
      ∃ g n, G r.definition g ∧ g.node? o.node = some n ∧ o.nodeType = n.type.text := by
    intro o ho
    obtain ⟨r, hr, hrun, hgraph⟩ := hd o ho
    obtain ⟨r', hr', hid, hdefinition⟩ := h.exists_after hr
    exact ⟨r', hr', hrun.trans hid.symm, hdefinition.symm ▸ hgraph⟩
  rcases h.records with heq | ⟨new, heq, r, hr, hrun, hnode, g, n, hg, hn, htype, -⟩ <;> rw [heq]
  · exact hkept
  · intro o ho
    rcases List.mem_append.1 ho with ho | ho
    · exact hkept o ho
    · obtain rfl := List.mem_singleton.1 ho
      exact ⟨r, hr, hrun, g, n, hg, hnode ▸ hn, htype⟩

theorem once_of_effect (h : d.Effect G scope d') (hd : d.records.Pairwise NodeRecord.Once) :
    d'.records.Pairwise NodeRecord.Once := by
  rcases h.records with heq | ⟨new, heq, r, hr, hrun, hnode, g, n, hg, hn, htype, hunsent⟩ <;>
    rw [heq]
  · exact hd
  · refine List.pairwise_append.2 ⟨hd, List.pairwise_singleton _ _, fun a ha b hb => ?_⟩
    obtain rfl := List.mem_singleton.1 hb
    rintro hrun' hnode' ⟨t, ht, htext⟩ hfirst hsecond
    obtain rfl : t = n.type := NodeType.text_inj (htext.symm.trans htype)
    have hsuccess : d.hasSuccess r.id r.node :=
      Database.hasSuccess_iff.2 ⟨a, ha, hrun'.trans hrun, hnode'.trans hnode, hfirst⟩
    simp [hunsent ht hsecond] at hsuccess

theorem Accounted.of_step (plain : env.host.Plain) {w w' : World (σ × List Sighting)}
    (h : Step env.observed G scope w w') (hw : Accounted G w.db) : Accounted G w'.db :=
  ⟨plain_of_step plain h hw.plain, attributed_of_effect h.effect hw.attributed,
    once_of_effect h.effect hw.once⟩

/-! ## Histories -/

/-- What is sent in a history, and what the trail tells of it. -/
structure Delivered (w : World (σ × List Sighting)) : Prop where
  /-- What is sent carries the key of a run and of the sending node that it stands on, which has no
  success yet. -/
  unsent : ∀ s ∈ w.sightings, ∀ call key, s.occasion = .service call → call.key? = some key →
    ∃ r ∈ s.db.runs, key = r.id ++ ":" ++ r.node ∧ s.db.hasSuccess r.id r.node = false ∧
      ∃ g n, s.db.HasGraph r.definition g ∧ g.node? r.node = some n ∧ n.type.isSending
  /-- Once the trail holds a success of a node of a run, nothing is sent with their key. -/
  silent : ∀ before s after, w.sightings = before ++ s :: after → ∀ a ∈ before ++ [s],
    ∀ run node call, a.db.hasSuccess run node → s.occasion = .service call →
      call.key? ≠ some (run ++ ":" ++ node)
  /-- After a success of a sending node of a run, an attempt at it is skipped or fails. -/
  skipped : ∀ d ∈ w.trace, ∀ r ∈ d.runs, ∀ g node n, d.HasGraph r.definition g →
    g.node? node = some n → n.type.isSending →
    (d.recordsOf r.id node).Pairwise fun a b =>
      a.outcome = .success → b.outcome = .skipped ∨ b.outcome = .failed
  /-- A sending node of a run has at most one success. -/
  once : ∀ d ∈ w.trace, ∀ r ∈ d.runs, ∀ g node n, d.HasGraph r.definition g →
    g.node? node = some n → n.type.isSending →
    ((d.recordsOf r.id node).filter fun o => o.outcome == .success).length ≤ 1
  /-- No two nodes of runs share a key. -/
  distinct : ∀ d ∈ w.trace, ∀ r ∈ d.runs, ∀ r' ∈ d.runs, ∀ node node',
    r.id ++ ":" ++ node = r'.id ++ ":" ++ node' → r = r' ∧ node = node'

namespace Chronicle

variable {w : World (σ × List Sighting)}

/-- What the trail held when the host was called earlier it holds later on. -/
theorem records_prefix (h : Chronicle G w) {before after : List Sighting} {s : Sighting}
    (hs : w.sightings = before ++ s :: after) :
    ∀ a ∈ before ++ [s], a.db.records <+: s.db.records := by
  have hsightings := List.pairwise_map.1 (List.pairwise_append.1 h.pairwise_records).1
  rw [hs] at hsightings
  intro a ha
  rcases List.mem_append.1 ha with ha | ha
  · exact (List.pairwise_append.1 hsightings).2.2 a ha s List.mem_cons_self
  · exact List.mem_singleton.1 ha ▸ List.prefix_refl _

/-- The records of a sending node tell a success once. -/
theorem pairwise_recordsOf (h : Chronicle G w) (hw : ∀ d ∈ w.trace, Accounted G d) {r : Run}
    (hd : d ∈ w.trace) (hr : r ∈ d.runs) {g : Graph} {node : String} {n : Node}
    (hg : d.HasGraph r.definition g) (hn : g.node? node = some n) (hsending : n.type.isSending) :
    (d.recordsOf r.id node).Pairwise fun a b => a.outcome = .success → b.outcome ≠ .success := by
  refine ((hw d hd).once.filter _).imp_of_mem fun {a b} ha hb hab => ?_
  simp only [Database.recordsOf, List.mem_filter, Bool.and_eq_true, beq_iff_eq] at ha hb
  refine hab (ha.2.1.trans hb.2.1.symm) (ha.2.2.trans hb.2.2.symm) ⟨n.type, hsending, ?_⟩
  obtain ⟨o, ho, hrun, g', n', hg', hn', htype⟩ := (hw d hd).attributed b hb.1
  obtain rfl : o = r :=
    List.inj_on_of_nodup_map (h.distinct d hd) ho hr (hrun.symm.trans hb.2.1)
  rw [← h.graphs d hd] at hg'
  obtain rfl : g' = g := Option.some.inj (hg'.symm.trans hg)
  rw [hb.2.2, hn] at hn'
  rw [htype, Option.some.inj hn']

theorem plain_of_mem (hw : ∀ d ∈ w.trace, Accounted G d) (hd : d ∈ w.trace) {r : Run}
    (hr : r ∈ d.runs) : ':' ∉ r.id.toList :=
  (hw d hd).plain r.id (List.mem_map_of_mem hr)

/-- What was known as a success when the host was called earlier is not sent later on. -/
theorem key?_ne (h : Chronicle G w) (hw : ∀ d ∈ w.trace, Accounted G d)
    {before after : List Sighting} {s a : Sighting} (hs : w.sightings = before ++ s :: after)
    (ha : a ∈ before ++ [s]) {run node : String} {call : ServiceCall}
    (hsuccess : a.db.hasSuccess run node) (hcall : s.occasion = .service call) :
    call.key? ≠ some (run ++ ":" ++ node) := by
  intro hkey
  have hmem : s ∈ w.sightings := hs ▸ List.mem_append_right _ List.mem_cons_self
  have hd := World.db_mem_of_mem_sightings hmem
  have hsuccess' := Database.hasSuccess_of_prefix (h.records_prefix hs a ha) hsuccess
  obtain ⟨o, ho, rfl, rfl, -⟩ := Database.hasSuccess_iff.1 hsuccess'
  obtain ⟨r', hr', hrun, -⟩ := (hw s.db hd).attributed o ho
  obtain ⟨r, hr, heq, hunsent, -⟩ := h.unsent s hmem call hcall _ hkey
  -- The key tells the run, so the row that is sent for is the one of the record.
  obtain ⟨hid, hnode⟩ := colon_join_inj (hrun ▸ plain_of_mem hw hd hr') (plain_of_mem hw hd hr) heq
  rw [hid, hnode, hunsent] at hsuccess'
  cases hsuccess'

theorem delivered (h : Chronicle G w) (hw : ∀ d ∈ w.trace, Accounted G d) : Delivered w := by
  constructor
  · intro s hs call key hcall hkey
    rw [h.graphs s.db (World.db_mem_of_mem_sightings hs)]
    exact h.unsent s hs call hcall key hkey
  · exact fun before s after hs a ha run node call hsuccess hcall =>
      h.key?_ne hw hs ha hsuccess hcall
  · intro d hd r hr g node n hg hn hsending
    refine (h.pairwise_recordsOf hw hd hr hg hn hsending).imp fun {a b} hab ha => ?_
    have hb := hab ha
    cases houtcome : b.outcome with
    | success => exact absurd houtcome hb
    | failed => exact Or.inr rfl
    | skipped => exact Or.inl rfl
  · intro d hd r hr g node n hg hn hsending
    refine length_filter_le_one ((h.pairwise_recordsOf hw hd hr hg hn hsending).imp ?_)
    intro a b hab ha hb
    exact hab (beq_iff_eq.1 ha) (beq_iff_eq.1 hb)
  · intro d hd r hr r' hr' node node' heq
    obtain ⟨hid, hnode⟩ := colon_join_inj (plain_of_mem hw hd hr) (plain_of_mem hw hd hr') heq
    exact ⟨List.inj_on_of_nodup_map (h.distinct d hd) hr hr' hid, hnode⟩

end Chronicle

/-- Whatever a worker does and whatever fails, a node of a run that has succeeded sends nothing
again. All that is sent in an attempt at a node of a run carries the key of the two. -/
theorem performAll_delivered (env : Environment σ) (plain : env.host.Plain)
    (w : World (σ × List Sighting)) (pristine : w.Pristine) (ops : List Operation) :
    Delivered (performAll env.observed w ops) ∧
    ∀ (run : Run) (node : Node) (number : Int) (w : World σ), ∃ made,
      ((Engine.attemptAction env run node number).run w).2.calls = w.calls ++ made ∧
        IsAttempt run.id node.id made := by
  refine ⟨?_, fun run node number w => Engine.asks_attemptAction run node number w⟩
  have hfirst : Accounted w.db.HasGraph w.db := by
    constructor <;> simp [pristine.runs, pristine.records]
  exact (pristine.chronicle ops).delivered
    (pristine.forall_trace hfirst (fun _ _ => .of_step plain) ops)

/-- A run that got stuck after a mail was sent does not send it again. -/
theorem performAll_delivered_of_opening :
    troubled.host.Plain ∧ opening.Pristine ∧
    Delivered (performAll troubled.observed opening recovery) ∧
    ((performAll troubled.observed opening recovery).calls.filterMap ServiceCall.key?) =
      ["run-1:mail"] ∧
    (performAll troubled.observed opening recovery).db.records.map (·.outcome) =
      [.success, .skipped] := by
  have named : ':' ∉ "run-1".toList := by decide
  have plain : troubled.host.Plain := fun _ _ => named
  exact ⟨plain, pristine_opening,
    (performAll_delivered troubled plain opening pristine_opening recovery).1,
    by decide +kernel, by decide +kernel⟩

end CrmAutomation
