import CrmAutomation.Proofs.Engine.Cascade
import CrmAutomation.Proofs.Engine.Releases

/-!
# Which runs an event begins

An event is heard by the published definitions of its organization whose trigger listens to its
type and has filters that the payload passes (`Definition.Hears`). In a world to which any requests
have led, the definitions that are found for an event are all that listen to its type and no
others (`Engine.leads_candidates_listens`): the column that is searched tells the type of the
trigger, and the graph that was parsed before is the stored one.

Each definition that hears the event gets one run, unless it has an active run for the contact
(`Matches`). What one definition adds to the table is said by `Matches.append` and `Matches.drop`,
and what all of them add by induction on their list (`Engine.leads_startRuns_begun`). After the
event was handled none of these runs is running any more (`Engine.event_begins_runs`).
-/

namespace CrmAutomation

variable {σ : Type}

/-! ## Definitions that hear an event -/

/-- The definition is published in the organization of the event, and its trigger listens to the
type of the event and has no filter but such as the payload passes. -/
structure Definition.Hears (d : Definition) (e : Event) (trigger : Node) : Prop where
  organization_eq : d.organization = e.organization
  published : d.status = .known .published
  listens : ∃ g, d.Listens g trigger e.type.text
  passes : ∀ f ∈ trigger.config.filters,
    e.payloadValue f.1 ≠ .null ∧ (e.payloadValue f.1).display = f.2

theorem Event.passesAll_iff {e : Event} {filters : List (String × String)} :
    e.passesAll filters ↔
      ∀ f ∈ filters, e.payloadValue f.1 ≠ .null ∧ (e.payloadValue f.1).display = f.2 := by
  have hnull : ∀ v : Value, v.isNull = false ↔ v ≠ .null := by
    intro v
    cases v <;> simp [Value.isNull]
  simp [passesAll, passes, hnull]

/-- A definition has one graph, and that has one trigger. -/
theorem Definition.Listens.unique {d : Definition} {g g' : Graph} {trigger trigger' : Node}
    {type type' : String} (h : d.Listens g trigger type) (h' : d.Listens g' trigger' type') :
    g' = g ∧ trigger' = trigger ∧ type' = type := by
  obtain rfl : g = g' := Except.ok.inj (h.parsed.symm.trans h'.parsed)
  obtain rfl : trigger = trigger' := Option.some.inj (h.trigger_eq.symm.trans h'.trigger_eq)
  obtain ⟨stage, tag, hconfig⟩ := h.config_eq
  obtain ⟨stage', tag', hconfig'⟩ := h'.config_eq
  rw [hconfig] at hconfig'
  cases hconfig'
  exact ⟨rfl, rfl, rfl⟩

theorem Definition.Listens.parse_eq {d : Definition} {g : Graph} {trigger : Node} {type : String}
    (h : d.Listens g trigger type) : Engine.parse d.graph = .ok g := by
  rw [Engine.parse, h.parsed]

namespace Database

variable {db : Database} {d : Definition} {organization type : String}

theorem mem_publishedFor : d ∈ db.publishedFor organization type ↔
    d ∈ db.definitions ∧ d.organization = organization ∧ d.status = .known .published ∧
      d.triggerType = some type := by
  rw [publishedFor, List.mem_mergeSort, List.mem_filter]
  simp [and_assoc]

theorem nodup_ids_publishedFor (h : (db.definitions.map (·.id)).Nodup) :
    ((db.publishedFor organization type).map (·.id)).Nodup := by
  rw [publishedFor, ((List.mergeSort_perm _ _).map _).nodup_iff]
  exact h.sublist (List.filter_sublist.map _)

/-- The column of a published definition tells the type that its trigger listens to. -/
theorem Catalogued.triggerType_eq (h : db.Catalogued) {g : Graph} {trigger : Node}
    (hd : d ∈ db.definitions) (hpublished : d.status = .known .published)
    (hlistens : d.Listens g trigger type) : d.triggerType = some type := by
  obtain ⟨g', trigger', type', hlistens', htype⟩ := h.listens d hd (by simp [hpublished])
  rw [htype, (hlistens.unique hlistens').2.2]

end Database

namespace Engine

variable {env : Environment σ} {G : String → Graph → Prop} {scope : Scope} {ds : List Definition}

/-- The definitions that are found are all that have a graph with a trigger. -/
theorem leads_withTriggers_listens (faithful : ∀ d ∈ ds, ∀ g, G d.id g → parse d.graph = .ok g)
    (l : List Definition) (hl : ∀ d ∈ l, d ∈ ds ∧ ∃ g trigger type, d.Listens g trigger type) :
    Leads (Step env G scope) (Kept G ds) (withTriggers l)
      (fun found w => Kept G ds w ∧ found.map (·.1) = l ∧
        ∀ p ∈ found, ∃ g type, p.1.Listens g p.2 type) fun _ => False := by
  induction l with
  | nil => exact .pure _ fun w hw => ⟨hw, rfl, by simp⟩
  | cons d l ih =>
    obtain ⟨hd, g, trigger, type, hlistens⟩ := hl d List.mem_cons_self
    have hparse := hlistens.parse_eq
    unfold withTriggers
    refine .bind (leads_usableGraph hd) fun found => ?_
    refine .assume (p := found = some g) (fun w hw => ?_) fun hfound => ?_
    · cases found with
      | none => exact absurd hparse (hw.2.2 rfl g)
      | some g' =>
        exact congrArg some (Except.ok.inj ((faithful d hd g' (hw.2.1 g' rfl)).symm.trans hparse))
    · subst hfound
      refine .bind ((ih fun d hd => hl d (List.mem_cons_of_mem _ hd)).pre fun w hw => hw.1)
        fun others => ?_
      rw [Option.bind_some, hlistens.trigger_eq]
      refine .pure _ fun w hw => ⟨hw.1, by rw [List.map_cons, hw.2.1], fun p hp => ?_⟩
      rcases List.mem_cons.1 hp with rfl | hp
      · exact ⟨g, type, hlistens⟩
      · exact hw.2.2 p hp

variable {db : Database}

/-- The definitions that are found for an event are the published ones of its organization that
listen to its type, each of them once. -/
theorem leads_candidates_listens (cat : db.Catalogued) (reliable : env.host.Reliable) (e : Event) :
    Leads (Step env db.HasGraph scope) (Kept db.HasGraph db.definitions) (candidates env e)
      (fun found w => Kept db.HasGraph db.definitions w ∧ (found.map (·.1.id)).Nodup ∧
        ∀ d trigger, (d, trigger) ∈ found ↔ d ∈ db.definitions ∧ d.organization = e.organization ∧
          d.status = .known .published ∧ ∃ g, d.Listens g trigger e.type.text)
      fun _ => False := by
  have hfaithful : ∀ d ∈ db.definitions, ∀ g, db.HasGraph d.id g → parse d.graph = .ok g :=
    fun _ hd _ => (Database.hasGraph_iff cat.ids hd).1
  refine .bind (leads_look_kept reliable _ _) fun l => ?_
  refine .assume (p := ∀ d, d ∈ l ↔ d ∈ db.definitions ∧ d.organization = e.organization ∧
      d.status = .known .published ∧ d.triggerType = some e.type.text) (fun w hw d => ?_)
    fun hmem => .assume (p := (l.map (·.id)).Nodup) (fun w hw => ?_) fun hnodup => ?_
  · rw [hw.2, Database.mem_publishedFor, hw.1.2]
  · rw [hw.2]
    exact Database.nodup_ids_publishedFor (hw.1.2 ▸ cat.ids)
  have hlistens : ∀ d ∈ l, ∃ g trigger, d.Listens g trigger e.type.text := by
    intro d hd
    obtain ⟨hds, -, hpublished, htype⟩ := (hmem d).1 hd
    obtain ⟨g, trigger, type, h, htype'⟩ := cat.listens d hds (by simp [hpublished])
    obtain rfl := Option.some.inj (htype.symm.trans htype')
    exact ⟨g, trigger, h⟩
  refine ((leads_withTriggers_listens hfaithful l fun d hd => ?_).conseq
    (fun w hw => hw.1) (fun found w hw => ?_) fun _ hw => hw)
  · obtain ⟨g, trigger, h⟩ := hlistens d hd
    exact ⟨((hmem d).1 hd).1, g, trigger, _, h⟩
  · obtain ⟨hkept, hfound, hall⟩ := hw
    have hids : found.map (·.1.id) = l.map (·.id) := by rw [← hfound, List.map_map]; rfl
    refine ⟨hkept, hids ▸ hnodup, fun d trigger => ⟨fun hp => ?_, ?_⟩⟩
    · have hd : d ∈ l := hfound ▸ List.mem_map_of_mem (f := (·.1)) hp
      obtain ⟨hds, horganization, hpublished, -⟩ := (hmem d).1 hd
      obtain ⟨g, type, h⟩ := hall _ hp
      obtain ⟨g', trigger', h'⟩ := hlistens d hd
      obtain ⟨-, -, rfl⟩ := h.unique h'
      exact ⟨hds, horganization, hpublished, g, h⟩
    · rintro ⟨hds, horganization, hpublished, g, h⟩
      have hd : d ∈ l :=
        (hmem d).2 ⟨hds, horganization, hpublished, cat.triggerType_eq hds hpublished h⟩
      obtain ⟨⟨d', trigger'⟩, hp, rfl⟩ := List.mem_map.1 (hfound ▸ hd)
      obtain ⟨g', type', h'⟩ := hall _ hp
      obtain ⟨-, rfl, -⟩ := h.unique h'
      exact hp

end Engine

/-! ## Runs of an event -/

/-- What is related to a list has its origin in it. -/
theorem exists_of_mem_of_forall₂ {α β : Type} {R : α → β → Prop} {l : List α} {l' : List β}
    (h : List.Forall₂ R l l') {b : β} (hb : b ∈ l') : ∃ a ∈ l, R a b := by
  induction h with
  | nil => cases hb
  | cons hr _ ih =>
    rcases List.mem_cons.1 hb with rfl | hb
    · exact ⟨_, List.mem_cons_self, hr⟩
    · obtain ⟨a, ha, hab⟩ := ih hb
      exact ⟨a, List.mem_cons_of_mem _ ha, hab⟩

namespace Run

/-- The run was begun on the definition for the event, and is on the trigger. -/
def BegunBy (e : Event) (p : Definition × Node) (r : Run) : Prop :=
  ∃ now, r = .created now r.id p.1 e.contact p.2.id e.toValue e.chainDepth

/-- Cancels by others make no run active. -/
theorem Conceded.isActiveFor {r r' : Run} {definition contact : String} (h : r.Conceded r')
    (active : Database.isActiveFor definition contact r') :
    Database.isActiveFor definition contact r := by
  rcases h with rfl | ⟨-, time, rfl⟩
  · exact active
  · simp [Database.isActiveFor, Database.ended, RunState.isActive] at active

/-- Runs that others may have cancelled stay so when others cancel more. -/
theorem forall₂_conceded_map {f : Run → Run} (hf : ∀ r : Run, r.Conceded (f r))
    {l rows : List Run} (h : List.Forall₂ Conceded l rows) :
    List.Forall₂ Conceded l (rows.map f) := by
  induction h with
  | nil => exact .nil
  | cons hr _ ih => exact .cons (hr.trans (hf _)) ih

end Run

/-- What became of the definitions that hear an event, when nothing else happened but that others
cancelled runs: each one that was started has a new run on its trigger, and had no active run of
the contact by then; each one that was dropped had one. -/
structure Matches (e : Event) (before : Database) (started dropped : List (Definition × Node))
    (r : MatchResult) (after : Database) : Prop where
  matched_eq : r.matched = r.runs.length + r.deduplicated
  deduplicated_eq : r.deduplicated = dropped.length
  begun : List.Forall₂ (Run.BegunBy e) started r.runs
  table : ∃ last rows, before.Concedes last ∧ List.Forall₂ Run.Conceded r.runs rows ∧
    after = { last with runs := last.runs ++ rows } ∧
    ∀ p ∈ started, ∀ o ∈ last.runs, ¬Database.isActiveFor p.1.id e.contact o
  busy : ∀ p ∈ dropped, ∃ o ∈ before.runs, Database.isActiveFor p.1.id e.contact o

namespace Matches

variable {e : Event} {before db db' : Database} {started dropped : List (Definition × Node)}
  {r : MatchResult} {p : Definition × Node}

theorem start (h : before.Concedes db) (id : String) :
    Matches e before [] [] { event := id } db :=
  ⟨rfl, rfl, .nil, ⟨db, [], h, .nil, by simp, by simp⟩, by simp⟩

theorem of_concedes (hd : db.Concedes db') (h : Matches e before started dropped r db) :
    Matches e before started dropped r db' := by
  obtain ⟨last, rows, hlast, hrows, rfl, hfree⟩ := h.table
  obtain ⟨hdefinitions, hrecords, f, hruns, hf⟩ := hd
  rw [List.map_append] at hruns
  have hmore : last.Concedes { db' with runs := last.runs.map f } :=
    ⟨hdefinitions, hrecords, f, rfl, hf⟩
  refine ⟨h.matched_eq, h.deduplicated_eq, h.begun, ?_, h.busy⟩
  refine ⟨_, rows.map f, hlast.trans hmore, Run.forall₂_conceded_map hf hrows, by rw [← hruns],
    fun p hp o' ho' active => ?_⟩
  obtain ⟨o, ho, hc⟩ := hmore.exists_before ho'
  exact hfree p hp o ho (hc.isActiveFor active)

/-- A run is begun on a definition without an active run of the contact. -/
theorem append (h : Matches e before started dropped r db)
    (free : ∀ o ∈ db.runs, ¬Database.isActiveFor p.1.id e.contact o) {run : Run}
    (begun : run.BegunBy e p) :
    Matches e before (started ++ [p]) dropped
      { r with matched := r.matched + 1, runs := r.runs ++ [run] }
      { db with runs := db.runs ++ [run] } := by
  obtain ⟨last, rows, hlast, hrows, rfl, hfree⟩ := h.table
  refine ⟨?_, h.deduplicated_eq, List.rel_append h.begun (.cons begun .nil),
    ⟨last, rows ++ [run], hlast, List.rel_append hrows (.cons (.refl run) .nil), by simp,
      fun q hq o ho => ?_⟩, h.busy⟩
  · have := h.matched_eq
    simp only [List.length_append, List.length_singleton]
    omega
  · rcases List.mem_append.1 hq with hq | hq
    · exact hfree q hq o ho
    · exact List.mem_singleton.1 hq ▸ free o (List.mem_append_left _ ho)

/-- A definition is dropped that has an active run of the contact, which is none of the new ones. -/
theorem drop (h : Matches e before started dropped r db)
    (unseen : p.1.id ∉ started.map (·.1.id))
    (busy : ∃ o ∈ db.runs, Database.isActiveFor p.1.id e.contact o) :
    Matches e before started (dropped ++ [p])
      { r with matched := r.matched + 1, deduplicated := r.deduplicated + 1 } db := by
  refine ⟨?_, ?_, h.begun, h.table, fun q hq => ?_⟩
  · have := h.matched_eq
    dsimp only
    omega
  · simp [h.deduplicated_eq]
  rcases List.mem_append.1 hq with hq | hq
  · exact h.busy q hq
  obtain rfl := List.mem_singleton.1 hq
  obtain ⟨last, rows, hlast, hrows, rfl, -⟩ := h.table
  obtain ⟨o, ho, active⟩ := busy
  rcases List.mem_append.1 ho with ho | ho
  · obtain ⟨o', ho', hc⟩ := hlast.exists_before ho
    exact ⟨o', ho', hc.isActiveFor active⟩
  · obtain ⟨run, hrun, hc⟩ := exists_of_mem_of_forall₂ hrows ho
    obtain ⟨q', hq', now, heq⟩ := exists_of_mem_of_forall₂ h.begun hrun
    refine absurd (List.mem_map.2 ⟨q', hq', ?_⟩) unseen
    rw [← (Database.isActiveFor_iff.1 active).2.1, hc.definition_eq, heq]
    rfl

/-- A definition that was started had no active run of the contact, unless others have cancelled
it since. -/
theorem idle (h : Matches e before started dropped r db) (distinct : (before.runs.map (·.id)).Nodup)
    (hp : p ∈ started) {o : Run} (ho : o ∈ before.runs)
    (uncancelled : Uncancelled o.id before → Uncancelled o.id db) :
    ¬Database.isActiveFor p.1.id e.contact o := by
  intro active
  obtain ⟨last, rows, hlast, -, rfl, hfree⟩ := h.table
  have hstart : Uncancelled o.id before := by
    intro r hr hid hcancelled
    obtain rfl := List.inj_on_of_nodup_map distinct hr ho hid
    simp [Database.isActiveFor, hcancelled, RunState.isActive] at active
  obtain ⟨o', ho', hc⟩ := hlast.exists_after ho
  rcases hc with rfl | ⟨-, time, rfl⟩
  · exact hfree p hp _ ho' active
  · exact uncancelled hstart _ (List.mem_append_left _ ho') rfl rfl

/-- A run that was begun is stored. -/
theorem exists_stored (h : Matches e before started dropped r db) {run : Run}
    (hrun : run ∈ r.runs) : ∃ o ∈ db.runs, o.id = run.id := by
  obtain ⟨last, rows, -, hrows, rfl, -⟩ := h.table
  have hflip : List.Forall₂ (fun o run => Run.Conceded run o) rows r.runs := hrows.flip
  obtain ⟨o, ho, hc⟩ := exists_of_mem_of_forall₂ hflip hrun
  exact ⟨o, List.mem_append_right _ ho, hc.id_eq⟩

end Matches

/-- The host makes up ids for runs that no run has. -/
def Host.NamesApart (host : Host σ) : Prop :=
  ∀ db s, (host.freshId .run db s).1 ∉ db.runs.map (·.id)

namespace Engine

variable {env : Environment σ} {G : String → Graph → Prop} {scope : Scope} {ds : List Definition}
  {e : Event} {before : Database}

/-- The runs are in order, and are those that the event has begun so far. -/
structure Begun (ds : List Definition) (e : Event) (before : Database)
    (started dropped : List (Definition × Node)) (r : MatchResult) (after : Database) : Prop where
  definitions_eq : after.definitions = ds
  coherent : after.RunsCoherent
  current : Matches e before started dropped r after

theorem calm_begun (started dropped : List (Definition × Node)) (r : MatchResult) :
    Calm fun w : World σ => Begun ds e before started dropped r w.db := fun _ _ hd h =>
  ⟨hd.definitions_eq.trans h.definitions_eq, h.coherent.of_concedes hd, h.current.of_concedes hd⟩

/-- A run is begun on the definition, unless it is dropped. -/
theorem leads_createRun_begun (can : CanBegin env e.chainDepth) (apart : env.host.NamesApart)
    (named : ∀ d ∈ ds, ':' ∉ d.id.toList) {p : Definition × Node} (hp : Startable G ds p.1 p.2)
    {started dropped : List (Definition × Node)} {r : MatchResult}
    (unseen : p.1.id ∉ started.map (·.1.id)) :
    Leads (Step env G scope) (fun w => Begun ds e before started dropped r w.db)
      (createRun env p.1 e.contact p.2.id e.toValue e.chainDepth)
      (fun created w => match created with
        | some run => Begun ds e before (started ++ [p]) dropped
            { r with matched := r.matched + 1, runs := r.runs ++ [run] } w.db
        | none => Begun ds e before started (dropped ++ [p])
            { r with matched := r.matched + 1, deduplicated := r.deduplicated + 1 } w.db)
      fun _ => False := by
  obtain ⟨hd, g, hg, htrigger⟩ := hp
  refine (leads_createRun p.1 e.contact p.2.id e.toValue e.chainDepth (calm_begun started dropped r)
    (fun w hw => ⟨hw.definitions_eq ▸ hd, g, p.2, hg, htrigger, rfl⟩) ?_).fails
    fun w hw => hw.2 can
  rintro w id ⟨hdefinitions, hcoherent, hcurrent⟩ ⟨s, hid⟩
  have hfresh : ∀ o ∈ w.db.runs, o.id ≠ id := fun o ho heq =>
    apart w.db s (hid ▸ heq ▸ List.mem_map_of_mem (f := (·.id)) ho)
  have hcreated := hcoherent.perform (w.clock.later 1)
    (c := .create id p.1 e.contact p.2.id e.toValue e.chainDepth) (named p.1 hd)
  rw [World.commanded]
  rw [RunCommand.perform] at hcreated ⊢
  rcases w.db.createRun_cases (w.clock.later 1) id p.1 e.contact p.2.id e.toValue e.chainDepth with
    ⟨⟨o, ho, htaken⟩, heq⟩ | ⟨hfree, heq⟩ <;> rw [heq] at hcreated ⊢
  · refine ⟨hdefinitions, hcreated, hcurrent.drop unseen ?_⟩
    exact (hcoherent.slot_taken_iff (named p.1 hd) e.contact).1
      ⟨o, ho, htaken.resolve_left (hfresh o ho)⟩
  · refine ⟨hdefinitions, hcreated, hcurrent.append (fun o ho active => ?_) ⟨_, rfl⟩⟩
    exact (hfree o ho).2 (hcoherent.activeKey_of_isActiveFor ho active)

/-- Whether the event passes the filters of the trigger of a definition. -/
def passesTrigger (e : Event) (p : Definition × Node) : Bool := e.passesAll p.2.config.filters

/-- By induction on the definitions: each one that the event passes is started or dropped. -/
theorem leads_startRuns_begun (can : CanBegin env e.chainDepth) (apart : env.host.NamesApart)
    (named : ∀ d ∈ ds, ':' ∉ d.id.toList) :
    ∀ (l started dropped : List (Definition × Node)) (r : MatchResult),
      (∀ p ∈ l, Startable G ds p.1 p.2) → (l.map (·.1.id)).Nodup →
      (∀ p ∈ l, p.1.id ∉ started.map (·.1.id)) →
      Leads (Step env G scope) (fun w => Begun ds e before started dropped r w.db)
        (startRuns env e l r)
        (fun r' w => ∃ started' dropped', Begun ds e before started' dropped' r' w.db ∧
          (started' ++ dropped').Perm (started ++ dropped ++ l.filter (passesTrigger e)))
        fun _ => False
  | [], started, dropped, r, _, _, _ => .pure r fun w hw => ⟨started, dropped, hw, by simp⟩
  | p :: l, started, dropped, r, hstart, hids, hunseen => by
    obtain ⟨hother, hids⟩ := List.nodup_cons.1 hids
    have hstart' : ∀ q ∈ l, Startable G ds q.1 q.2 :=
      fun q hq => hstart q (List.mem_cons_of_mem _ hq)
    have hunseen' : ∀ q ∈ l, q.1.id ∉ started.map (·.1.id) :=
      fun q hq => hunseen q (List.mem_cons_of_mem _ hq)
    unfold startRuns
    split
    · rename_i hpasses
      rw [List.filter_cons_of_pos (p := passesTrigger e) hpasses]
      refine .bind (leads_createRun_begun can apart named (hstart p List.mem_cons_self)
        (hunseen p List.mem_cons_self)) fun created => ?_
      cases created with
      | some run =>
        refine (leads_startRuns_begun can apart named l (started ++ [p]) dropped _ hstart' hids
          fun q hq => ?_).post fun r' w => ?_
        · rw [List.map_append, List.mem_append, not_or]
          refine ⟨hunseen' q hq, fun heq => hother ?_⟩
          rw [← List.mem_singleton.1 heq]
          exact List.mem_map_of_mem (f := (·.1.id)) hq
        · rintro ⟨started', dropped', hw, hperm⟩
          refine ⟨started', dropped', hw, hperm.trans ?_⟩
          simp only [List.append_assoc, List.singleton_append]
          exact (List.perm_middle.symm).append_left started
      | none =>
        refine (leads_startRuns_begun can apart named l started (dropped ++ [p]) _ hstart' hids
          hunseen').post fun r' w => ?_
        rintro ⟨started', dropped', hw, hperm⟩
        exact ⟨started', dropped', hw, by simpa using hperm⟩
    · rename_i hpasses
      rw [List.filter_cons_of_neg (p := passesTrigger e) hpasses]
      exact leads_startRuns_begun can apart named l started dropped r hstart' hids hunseen'

/-- The definitions that hear an event are those that are started or dropped. -/
structure Heard (e : Event) (before : Database) (r : MatchResult)
    (started dropped : List (Definition × Node)) (after : Database) : Prop where
  begun : Begun before.definitions e before started dropped r after
  ids : ((started ++ dropped).map (·.1.id)).Nodup
  mem_iff : ∀ d trigger, (d, trigger) ∈ started ++ dropped ↔
    d ∈ before.definitions ∧ d.Hears e trigger

theorem leads_matching_heard (cat : before.Catalogued) (can : CanBegin env e.chainDepth)
    (apart : env.host.NamesApart) :
    Leads (Step env before.HasGraph scope)
      (fun w => Kept before.HasGraph before.definitions w ∧ w.db.RunsCoherent ∧
        before.Concedes w.db) (matching env e)
      (fun r w => Kept before.HasGraph before.definitions w ∧
        ∃ started dropped, Heard e before r started dropped w.db) fun _ => False := by
  have calm : Calm (σ := σ) fun w => w.db.RunsCoherent ∧ before.Concedes w.db :=
    fun _ _ hd hw => ⟨hw.1.of_concedes hd, hw.2.trans hd⟩
  have hturn : ∀ (w : World σ) turns, Step env before.HasGraph scope w { w with turns := turns } :=
    fun w turns => .turn turns
  refine leads_inTurn _ _ hturn (fun w turns hw => ⟨kept_of_step (hturn w turns) hw.1, hw.2⟩)
    (fun r w turns hw => ⟨kept_of_step (hturn w turns) hw.1, hw.2⟩) (fun _ _ hw => hw) ?_
  have hdoes : Does env ⟨(· = .publishedFor), fun _ => False, fun _ => True⟩ (candidates env e) :=
    does_candidates e rfl fun _ => trivial
  refine .bind (((leads_candidates_listens cat can.1 e).and
    (hdoes.calm (fun _ => id) (by simp) calm)).fails fun _ hw => hw.1) fun found => ?_
  refine .assume (fun w hw => hw.1.2) fun ⟨hids, hfound⟩ => ?_
  have hstart : ∀ p ∈ found, Startable before.HasGraph before.definitions p.1 p.2 := by
    intro p hp
    obtain ⟨hd, -, -, g, hlistens⟩ := (hfound p.1 p.2).1 hp
    exact ⟨hd, g, (Database.hasGraph_iff cat.ids hd).2 hlistens.parse_eq, hlistens.trigger_eq⟩
  refine ((leads_startRuns_begun can apart cat.named found [] [] { event := e.id } hstart hids
    (by simp)).keep fun _ _ => kept_of_step).conseq
    (fun w hw => ⟨hw.1.1, hw.1.1.2, hw.2.1, .start hw.2.2 e.id⟩) (fun r w hw => ?_)
    fun _ hw => hw.2
  obtain ⟨hkept, started, dropped, hbegun, hperm⟩ := hw
  refine ⟨hkept, started, dropped, hbegun, ?_, fun d trigger => ?_⟩
  · rw [(hperm.map _).nodup_iff]
    exact hids.sublist (List.filter_sublist.map _)
  · rw [hperm.mem_iff, List.nil_append, List.nil_append, List.mem_filter, hfound, passesTrigger,
      Event.passesAll_iff]
    constructor
    · rintro ⟨⟨hd, horganization, hpublished, hlistens⟩, hpasses⟩
      exact ⟨hd, horganization, hpublished, hlistens, hpasses⟩
    · rintro ⟨hd, horganization, hpublished, hlistens, hpasses⟩
      exact ⟨⟨hd, horganization, hpublished, hlistens⟩, hpasses⟩

/-- An event that is not too deep begins its runs and then executes them. -/
theorem run_handleWith {w middle after : World σ} {r : MatchResult} {outcomes : List Outcome}
    {route : List Event → Engine σ Unit} (reliable : env.host.Reliable)
    (shallow : e.chainDepth ≤ env.rules.maxChainDepth)
    (hmatching : (matching env e).run (w.interrupted env .handleEvent) = (.ok r, middle))
    (hadvance : (advanceAll env route r.runs).run middle = (.ok outcomes, after)) :
    (handleWith env route e).run w = (.ok { r with outcomes := outcomes }, after) := by
  unfold handleWith
  rw [run_interrupt_bind, reliable]
  dsimp only
  rw [if_neg (Int.not_lt.2 shallow)]
  rw [matching] at hmatching
  rw [run_bind, hmatching]
  dsimp only
  rw [run_bind, hadvance]
  rfl

/-- What an event begins in a world to which requests have led, whatever was created, edited,
published and archived before, and whatever failed meanwhile. (Runs are started by hand on what has
left draft, as the service does, since the graph of a draft may change after it was parsed.) With a
database that does not fail, an event that is not too deep is handled without a failure. Before any
run is executed, the definitions that hear the event are split in those that are started and those
that are dropped: each one that was started has one new run on its trigger, with the event and its
depth, and had no active run of the contact; each one that was dropped had one; and nothing else was
added to the table. Afterwards none of these runs is running. -/
theorem event_begins_runs {w : World σ} (attained : w.Attained) (reliable : env.host.Reliable)
    (apart : env.host.NamesApart) (shallow : e.chainDepth ≤ env.rules.maxChainDepth)
    (fits : Database.fitsColumn e.chainDepth) :
    ∃ r middle outcomes after started dropped,
      (matching env e).run (w.interrupted env .handleEvent) = (.ok r, middle) ∧
      (handleEvent env e).run w = (.ok { r with outcomes := outcomes }, after) ∧
      ((started ++ dropped).map (·.1.id)).Nodup ∧
      (∀ d trigger, (d, trigger) ∈ started ++ dropped ↔
        d ∈ w.db.definitions ∧ d.Hears e trigger) ∧
      Matches e w.db started dropped r middle.db ∧
      (∀ p ∈ started, ∀ o ∈ w.db.runs, env.host.Spares o.id →
        ¬Database.isActiveFor p.1.id e.contact o) ∧
      ∀ run ∈ r.runs, ∃ o, after.db.run? run.id = some o ∧ o.state ≠ .running := by
  have hw := attained.regular
  have hconcedes := w.concedes_interrupted env .handleEvent
  have hstep : Step env w.db.HasGraph .own w (w.interrupted env .handleEvent) :=
    .interrupt .handleEvent
  obtain ⟨r, middle, hmatching, hpath, hmiddle, started, dropped, hheard⟩ :=
    (leads_matching_heard hw.catalogued ⟨reliable, fits⟩ apart).exists_ok
      ⟨kept_of_step hstep hw.kept, hw.uses.coherent.of_concedes hconcedes, hconcedes⟩
  have hcurrent := hheard.begun.current
  obtain ⟨outcomes, after, hadvance, -, hafter, hrests⟩ :=
    (leads_advanceAll_rests reliable r.runs).exists_ok
      ⟨hmiddle, fun _ hrun => hcurrent.exists_stored hrun⟩
  refine ⟨r, middle, outcomes, after, started, dropped, hmatching, ?_, hheard.ids, hheard.mem_iff,
    hcurrent, fun p hp o ho spares => ?_, fun run hrun => ?_⟩
  · rw [handleEvent_eq]
    exact run_handleWith reliable shallow hmatching hadvance
  · refine hcurrent.idle hw.uses.coherent.ids hp ho fun hstart => ?_
    have hpath' : Path (Step env w.db.HasGraph .own) w middle := hpath.head hstep
    exact hpath'.keep (I := fun w => Uncancelled o.id w.db)
      (fun _ _ => uncancelled_of_step spares) hstart
  · obtain ⟨s, hs, o, ho, hid, hstate⟩ := hrests run hrun
    refine ⟨o, hid ▸ Distinct.run?_eq_some hafter.1.ids ho, ?_⟩
    rcases hstate with heq | heq
    · rwa [heq]
    · simp [heq]

/-- A text that is longer than all of some texts together. -/
def longerThan (texts : List String) : String :=
  String.ofList ('i' :: (texts.map String.toList).flatten)

theorem longerThan_not_mem (texts : List String) : longerThan texts ∉ texts := by
  intro h
  have hle := (List.sublist_flatten_of_mem (List.mem_map_of_mem (f := String.toList) h)).length_le
  rw [longerThan, String.toList_ofList, List.length_cons] at hle
  exact Nat.not_succ_le_self _ hle

/-- Nothing fails, tags are there, and no id of a run is made up twice. -/
def careful : Environment Unit where
  host := {
    freshId := fun kind db _ => match kind with
      | .run => (longerThan (db.runs.map (·.id)), ())
      | .definition .. => ("pause-1", ())
      | _ => ("pause", ())
    draw := fun _ => (.zero, ())
    storage := fun _ _ _ => (⟨[], none⟩, ())
    service := fun call _ _ => match call with
      | .tagExists .. => (⟨[], .value true⟩, ())
      | _ => (⟨[], .silence⟩, ())
    wait := fun _ _ _ => ([], ()) }
  rules := undisturbed.rules

/-- Who is given a tag waits for an hour. -/
def pause : Value := .obj [
  ("nodes", .list [
    .obj [("id", .str "start"), ("type", .str "trigger"),
      ("data", .obj [("triggerType", .str "tag_added"),
        ("config", .obj [("tag_id", .str "vip")])])],
    .obj [("id", .str "wait"), ("type", .str "delay"),
      ("data", .obj [("config", .obj [("duration_minutes", .int 60)])])]]),
  ("edges", .list [.obj [("source", .str "start"), ("target", .str "wait")]])]

/-- A contact is given the tag. -/
def tagging (contact : String) : Event where
  type := .tagAdded
  organization := "o-1"
  contact := contact
  payload := [("tagId", .str "vip")]
  chainDepth := 0
  id := "e-1"
  occurredAt := ⟨1⟩

/-- A world without tables. -/
def blank : World Unit where
  db := .empty
  clock := ⟨1⟩
  graphs := []
  turns := []
  calls := []
  waits := []
  host := ()

/-- The world in which the first version of a workflow on `pause` is published. -/
def announced : World Unit :=
  (Request.publish "pause" "o-1").perform careful
    ((Request.create "o-1" "Pause" "" pause none).perform careful blank)

/-- The world in which one contact waits. -/
def pausing : World Unit := (Request.operate (.event (tagging "c-1"))).perform careful announced

/-- While one contact waits, the same event begins a run for another contact and none for the first
one. -/
theorem event_begins_runs_of_pausing :
    pausing.Attained ∧ careful.host.Reliable ∧ careful.host.NamesApart ∧
    (∀ contact, (tagging contact).chainDepth ≤ careful.rules.maxChainDepth ∧
      Database.fitsColumn (tagging contact).chainDepth) ∧
    (∃ (r : MatchResult) (outcomes : List Outcome) (after : World Unit),
      (handleEvent careful (tagging "c-2")).run pausing =
        (.ok { r with outcomes := outcomes }, after) ∧
      (r.matched, r.deduplicated, r.runs.map (·.node)) = (1, 0, ["start"]) ∧
      ∀ run ∈ r.runs, ∃ o, after.db.run? run.id = some o ∧ o.state ≠ .running) ∧
    ∃ (r : MatchResult) (outcomes : List Outcome) (after : World Unit),
      (handleEvent careful (tagging "c-1")).run pausing =
        (.ok { r with outcomes := outcomes }, after) ∧
      (r.matched, r.deduplicated, r.runs.map (·.node)) = (1, 1, []) := by
  have named : ∀ id, careful.host.NamesDefinition id → ':' ∉ id.toList := by
    rintro _ ⟨workflow, version, db, s, rfl⟩
    exact (by decide : ':' ∉ "pause-1".toList)
  have attained : pausing.Attained := by
    refine .serve (.serve (.serve (.empty rfl rfl) careful named _ ?_) careful named _ ?_) careful
      named _ ?_ <;> trivial
  have reliable : careful.host.Reliable := fun _ _ _ => rfl
  have apart : careful.host.NamesApart := fun db _ => longerThan_not_mem _
  have hdepth : ∀ contact, (tagging contact).chainDepth ≤ careful.rules.maxChainDepth ∧
      Database.fitsColumn (tagging contact).chainDepth :=
    fun _ => (by decide : (0 : Int) ≤ careful.rules.maxChainDepth ∧ Database.fitsColumn 0)
  obtain ⟨r, -, outcomes, after, -, -, -, hrun, -, -, -, -, hrests⟩ :=
    event_begins_runs attained reliable apart (hdepth "c-2").1 (hdepth "c-2").2
  obtain ⟨r', -, outcomes', after', -, -, -, hrun', -⟩ :=
    event_begins_runs attained reliable apart (hdepth "c-1").1 (hdepth "c-1").2
  have hvalue : ((handleEvent careful (tagging "c-2")).run pausing).1.toOption.map
      (fun r => (r.matched, r.deduplicated, r.runs.map (·.node))) = some (1, 0, ["start"]) := by
    decide +kernel
  have hvalue' : ((handleEvent careful (tagging "c-1")).run pausing).1.toOption.map
      (fun r => (r.matched, r.deduplicated, r.runs.map (·.node))) = some (1, 1, []) := by
    decide +kernel
  rw [hrun] at hvalue
  rw [hrun'] at hvalue'
  exact ⟨attained, reliable, apart, hdepth,
    ⟨r, outcomes, after, hrun, Option.some.inj hvalue, hrests⟩,
    r', outcomes', after', hrun', Option.some.inj hvalue'⟩

end Engine

end CrmAutomation
