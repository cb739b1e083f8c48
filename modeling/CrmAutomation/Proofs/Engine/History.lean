import CrmAutomation.Engine.Sweep
import CrmAutomation.Proofs.Engine.Routing
import Mathlib.Data.List.Chain

/-!
# Histories

A worker does one thing after the other (`Operation`): it handles events, starts, executes and
cancels runs, sweeps, rests, and is started anew after a crash. Each of these may fail, and the next
one begins with what it left.

What happens in between is seen by the host. `Host.observed` is a host that does everything as
another one does, and keeps a log of when it was called and what the database was then. Every write
of the engine comes with a call to the host, so the databases of the log, and the present one at
the end (`World.trace`), are all that there ever were; and what the engine asked of a service is in
the log, with the database at the moment of the call. The main statement is
`World.Pristine.chronicle`: between two databases of a history there is the effect of one step, and
a call to a service that sends something found it not sent yet.
-/

namespace CrmAutomation

variable {σ : Type}

/-! ## Observing -/

/-- What the engine turns to its host for. -/
inductive Occasion where
  | storage (call : StorageCall)
  | service (call : ServiceCall)
  | wait
  | name (kind : IdKind)

/-- A call to the host, and the database at that moment. -/
structure Sighting where
  occasion : Occasion
  db : Database

/-- The host with a log of the calls to it. -/
def Host.observed (host : Host σ) : Host (σ × List Sighting) where
  freshId kind db s :=
    ((host.freshId kind db s.1).1, (host.freshId kind db s.1).2, s.2 ++ [⟨.name kind, db⟩])
  draw s := ((host.draw s.1).1, (host.draw s.1).2, s.2)
  storage call db s :=
    ((host.storage call db s.1).1, (host.storage call db s.1).2, s.2 ++ [⟨.storage call, db⟩])
  service call db s :=
    ((host.service call db s.1).1, (host.service call db s.1).2, s.2 ++ [⟨.service call, db⟩])
  wait delay db s :=
    ((host.wait delay db s.1).1, (host.wait delay db s.1).2, s.2 ++ [⟨.wait, db⟩])

/-- The same surroundings, observed. -/
def Environment.observed (env : Environment σ) : Environment (σ × List Sighting) where
  host := env.host.observed
  rules := env.rules

namespace World

/-- The calls to the host so far. -/
def sightings (w : World (σ × List Sighting)) : List Sighting := w.host.2

/-- The databases that there were, the present one last. -/
def trace (w : World (σ × List Sighting)) : List Database := w.sightings.map (·.db) ++ [w.db]

end World

/-- In the history that was seen as `seen` and has come to `last`, the database `d` became `d'` when
`before` had been seen. -/
def Became (seen : List Sighting) (last : Database) (before : List Sighting) (d d' : Database) :
    Prop :=
  before <+: seen ∧ ∃ after, seen.map (·.db) ++ [last] = before.map (·.db) ++ d :: d' :: after

/-- The graph of a definition, as a relation. -/
def Database.HasGraph (db : Database) (id : String) (g : Graph) : Prop := db.graph? id = some g

/-- The graph that is found for a stored definition is its own. -/
theorem Database.hasGraph_iff {db : Database} (ids : (db.definitions.map (·.id)).Nodup)
    {d : Definition} (hd : d ∈ db.definitions) {g : Graph} :
    db.HasGraph d.id g ↔ Engine.parse d.graph = .ok g := by
  have hfound : db.definition? d.id = some d := find?_key ids hd
  rw [HasGraph, graph?, hfound, Option.bind_some]
  cases Engine.parse d.graph <;> simp [Except.toOption]

theorem Database.Effect.hasGraph_eq {G : String → Graph → Prop} {scope : Scope} {d d' : Database}
    (h : d.Effect G scope d') : d'.HasGraph = d.HasGraph := by
  funext id g
  simp only [Database.HasGraph, Database.graph?, Database.definition?, h.definitions_eq]

theorem World.trace_congr {w w' : World (σ × List Sighting)} (hdb : w'.db = w.db)
    (hhost : w'.host = w.host) : w'.trace = w.trace := by
  rw [trace, sightings, hdb, hhost, trace, sightings]

/-- What is known of a history: each database comes from the one before by the effect of a step, all
of them have the same graphs and no two runs with one id, and what was sent was not sent before. -/
structure Chronicle (G : String → Graph → Prop) (w : World (σ × List Sighting)) : Prop where
  chain : w.trace.IsChain (Database.Effect G .free)
  graphs : ∀ d ∈ w.trace, d.HasGraph = G
  distinct : ∀ d ∈ w.trace, (d.runs.map (·.id)).Nodup
  unsent : ∀ s ∈ w.sightings, ∀ call, s.occasion = .service call → s.db.Unsent G call

theorem Became.trace_eq {w : World (σ × List Sighting)} {before : List Sighting}
    {d d' : Database} (h : Became w.sightings w.db before d d') :
    ∃ after, w.trace = before.map (·.db) ++ d :: d' :: after :=
  h.2

theorem Chronicle.hasGraph_eq {G : String → Graph → Prop} {w : World (σ × List Sighting)}
    (h : Chronicle G w) {before : List Sighting} {d d' : Database}
    (hb : Became w.sightings w.db before d d') : d.HasGraph = G := by
  obtain ⟨after, htrace⟩ := hb.trace_eq
  exact h.graphs d (by simp [htrace])

/-- Whatever the trail holds it holds from then on. -/
theorem Chronicle.pairwise_records {G : String → Graph → Prop} {w : World (σ × List Sighting)}
    (h : Chronicle G w) : w.trace.Pairwise fun a b => a.records <+: b.records := by
  have htrans : Trans (fun a b : Database => a.records <+: b.records)
      (fun a b : Database => a.records <+: b.records)
      (fun a b : Database => a.records <+: b.records) := ⟨fun hab hbc => hab.trans hbc⟩
  exact List.isChain_iff_pairwise.1 (h.chain.imp fun _ _ heffect => heffect.records_prefix)

section Steps

variable {env : Environment σ} {G : String → Graph → Prop} {scope : Scope}
  {w w' : World (σ × List Sighting)}

/-- A step that changes the database is seen, with the database that it found. -/
theorem Step.sighted (h : Step env.observed G scope w w') :
    w'.sightings = w.sightings ∧ w'.db = w.db ∨
    ∃ occasion, w'.sightings = w.sightings ++ [⟨occasion, w.db⟩] ∧
      ∀ call, occasion = .service call → w.db.Unsent G call := by
  cases h with
  | tick | draw | remember | turn => exact Or.inl ⟨rfl, rfl⟩
  | name kind => exact Or.inr ⟨.name kind, rfl, by simp⟩
  | wait delay => exact Or.inr ⟨.wait, rfl, by simp⟩
  | interrupt call => exact Or.inr ⟨.storage call, rfl, by simp⟩
  | serve call unsent =>
    refine Or.inr ⟨.service call, rfl, ?_⟩
    rintro _ ⟨⟩
    exact unsent
  | command call => exact Or.inr ⟨.storage call, rfl, by simp⟩
  | create => exact Or.inr ⟨.name .run, rfl, by simp⟩
  | record => exact Or.inr ⟨.storage .record, rfl, by simp⟩

/-- The trace grows with the database, or both stay as they are. -/
theorem Step.trace (h : Step env.observed G scope w w') :
    w'.trace = w.trace ∧ w'.db = w.db ∨ w'.trace = w.trace ++ [w'.db] := by
  rcases h.sighted with ⟨hsightings, hdb⟩ | ⟨occasion, hsightings, -⟩
  · exact Or.inl ⟨by rw [World.trace, hsightings, hdb, World.trace], hdb⟩
  · exact Or.inr (by simp [World.trace, hsightings])

/-- What became of a database is what became of it before, or the last step of the history. -/
theorem Became.of_append {seen before : List Sighting} {last d d' now : Database} {s : Sighting}
    (hs : s.db = last) (h : Became (seen ++ [s]) now before d d') :
    Became seen last before d d' ∨ before = seen ∧ d = last ∧ d' = now := by
  obtain ⟨hbefore, after, heq⟩ := h
  have hseen : seen <+: seen ++ [s] := List.prefix_append _ _
  rw [List.map_append, List.map_singleton, hs] at heq
  rcases after.eq_nil_or_concat with rfl | ⟨rest, o, rfl⟩
  · rw [show before.map (·.db) ++ [d, d'] = (before.map (·.db) ++ [d]) ++ [d'] by simp] at heq
    obtain ⟨htrace, hnow⟩ := List.append_inj' heq rfl
    obtain ⟨hmap, hlast⟩ := List.append_inj' htrace rfl
    have hlength : before.length = seen.length := by
      simpa using (congrArg List.length hmap).symm
    refine Or.inr ⟨?_, (List.singleton_inj.1 hlast).symm, (List.singleton_inj.1 hnow).symm⟩
    exact (List.prefix_of_prefix_length_le hbefore hseen hlength.le).eq_of_length hlength
  · rw [show before.map (·.db) ++ d :: d' :: rest.concat o
      = (before.map (·.db) ++ d :: d' :: rest) ++ [o] by simp] at heq
    obtain ⟨htrace, -⟩ := List.append_inj' heq rfl
    have hlength := congrArg List.length htrace
    simp only [List.length_append, List.length_map, List.length_cons, List.length_nil] at hlength
    exact Or.inl ⟨List.prefix_of_prefix_length_le hbefore hseen (by omega), rest, htrace⟩

/-- What a step makes of a history: what has happened before, and its own effect. -/
theorem Step.became (h : Step env.observed G scope w w') {before : List Sighting} {d d' : Database}
    (hb : Became w'.sightings w'.db before d d') :
    Became w.sightings w.db before d d' ∨ before = w.sightings ∧ d = w.db ∧ d' = w'.db := by
  rcases h.sighted with ⟨hsightings, hdb⟩ | ⟨occasion, hsightings, -⟩
  · rw [hsightings, hdb] at hb
    exact Or.inl hb
  · rw [hsightings] at hb
    exact hb.of_append rfl

/-- Sightings are only ever added. -/
theorem Step.sightings_prefix (h : Step env.observed G scope w w') :
    w.sightings <+: w'.sightings := by
  rcases h.sighted with ⟨hsightings, -⟩ | ⟨occasion, hsightings, -⟩
  · exact hsightings ▸ List.prefix_rfl
  · exact hsightings ▸ List.prefix_append _ _

theorem World.db_mem_trace (w : World (σ × List Sighting)) : w.db ∈ w.trace := by
  simp [World.trace]

theorem World.db_mem_of_mem_sightings {s : Sighting} (hs : s ∈ w.sightings) : s.db ∈ w.trace :=
  List.mem_append_left _ (List.mem_map_of_mem hs)

/-- What a step keeps holds throughout the trace. -/
theorem Step.forall_trace {P : Database → Prop} (h : Step env.observed G scope w w')
    (hP : P w.db → P w'.db) (hw : ∀ d ∈ w.trace, P d) : ∀ d ∈ w'.trace, P d := by
  rcases h.trace with ⟨htrace, -⟩ | htrace <;> rw [htrace]
  · exact hw
  · intro d hd
    rcases List.mem_append.1 hd with hd | hd
    · exact hw d hd
    · exact List.mem_singleton.1 hd ▸ hP (hw _ w.db_mem_trace)

theorem Step.isChain_trace (h : Step env.observed G scope w w')
    (hw : w.trace.IsChain (Database.Effect G scope)) :
    w'.trace.IsChain (Database.Effect G scope) := by
  rcases h.trace with ⟨htrace, -⟩ | htrace <;> rw [htrace]
  · exact hw
  · refine List.isChain_append.2 ⟨hw, List.isChain_singleton _, fun d hd d' hd' => ?_⟩
    obtain rfl : w.db = d := by simpa [World.trace] using hd
    obtain rfl : w'.db = d' := by simpa using hd'
    exact h.effect

theorem Step.chronicle (h : Step env.observed G .free w w') (hw : Chronicle G w) :
    Chronicle G w' := by
  refine ⟨h.isChain_trace hw.chain, h.forall_trace h.effect.hasGraph_eq.trans hw.graphs,
    h.forall_trace h.effect.nodup_ids hw.distinct, fun s hs call hcall => ?_⟩
  rcases h.sighted with ⟨hsightings, -⟩ | ⟨occasion, hsightings, hunsent⟩ <;> rw [hsightings] at hs
  · exact hw.unsent s hs call hcall
  · rcases List.mem_append.1 hs with hs | hs
    · exact hw.unsent s hs call hcall
    · obtain rfl := List.mem_singleton.1 hs
      exact hunsent call hcall

end Steps

/-! ## Operations -/

/-- What a worker does as a whole. -/
inductive Operation where
  | event (e : Event)
  | start (definition contact : String) (payload : Members)
  | advance (run : String)
  | resume (run : String)
  | sweep
  | sweepAt (time : Instant)
  | recover (time : Instant)
  | cancel (run : String)
  | rest (time : Instant)
  | restart

/-- The world after an operation, whether it failed or not. A worker that was started anew knows
no graphs. -/
def Operation.perform (env : Environment σ) (w : World σ) : Operation → World σ
  | event e => ((Engine.handleEvent env e).run w).2
  | start definition contact payload =>
    match w.db.definition? definition with
    | some d => ((Engine.startManually env d contact payload).run w).2
    | none => w
  | advance run => ((Engine.advance env run).run w).2
  | resume run => ((Engine.resume env run).run w).2
  | sweep => ((Engine.sweep env).run w).2
  | sweepAt time => ((Engine.sweepAt env time).run w).2
  | recover time => ((Engine.recoverStale env time {}).run w).2
  | cancel run => ((Engine.cancel env run).run w).2
  | rest time => { w with clock := time }
  | restart => { w with graphs := [], turns := [] }

/-- The world after operations, one after the other. -/
def performAll (env : Environment σ) (w : World σ) (ops : List Operation) : World σ :=
  ops.foldl (Operation.perform env) w

section Operations

variable {env : Environment σ} {G : String → Graph → Prop} {ds : List Definition}
  {I : World σ → Prop} {α : Type}

/-- What every step keeps is kept by a computation that goes by steps. -/
theorem Engine.Goes.keep_run {scope : Scope} {x : Engine σ α} (hx : Engine.Goes env G scope ds x)
    (hstep : ∀ w w', Step env G scope w w' → I w → I w') {w : World σ}
    (hw : Kept G ds w ∧ I w) : Kept G ds (x.run w).2 ∧ I (x.run w).2 := by
  obtain ⟨hpath, hend⟩ := hx w hw.1
  refine ⟨?_, hpath.keep hstep hw.2⟩
  split at hend <;> exact hend

/-- What every step keeps stays as it is in a computation that goes by steps. -/
theorem Engine.Goes.stays {scope : Scope} {x : Engine σ α} (hx : Engine.Goes env G scope ds x)
    (hstep : ∀ w w', Step env G scope w w' → I w → I w') :
    Engine.Stays (fun _ _ => True) (fun w => Kept G ds w ∧ I w) x :=
  Engine.stays_iff.2 fun _ hw => ⟨.single trivial, hx.keep_run hstep hw⟩

/-- An operation that neither resumes a run, nor makes time pass, nor starts the worker anew. -/
def Operation.IsPlain : Operation → Prop
  | event _ | start .. | advance _ | recover _ | cancel _ => True
  | resume _ | sweep | sweepAt _ | rest _ | restart => False

/-- What every step keeps is kept by a plain operation, if runs may be cancelled and taken over. -/
theorem Operation.keep_of_isPlain {scope : Scope}
    (hstep : ∀ w w', Step env G scope w w' → I w → I w')
    (hcancel : ∀ db id, scope.outside db (.cancel id))
    (hstale : ∀ db c, scope.outside db (.claimStale c)) {o : Operation} (plain : o.IsPlain)
    {w : World σ} (hw : Kept G ds w ∧ I w) : Kept G ds (o.perform env w) ∧ I (o.perform env w) := by
  cases o with
  | event e => exact (Engine.goes_handleEvent e).keep_run hstep hw
  | start definition contact payload =>
    simp only [perform]
    split
    · rename_i d hd
      exact (Engine.goes_startManually (hw.1.2 ▸ List.mem_of_find?_eq_some hd) contact
        payload).keep_run hstep hw
    · exact hw
  | advance run => exact (Engine.goes_advance run).keep_run hstep hw
  | recover time => exact (Engine.goes_recoverStale hstale time _).keep_run hstep hw
  | cancel run =>
    exact (Engine.goes_cancel run fun db => hcancel db run).keep_run hstep hw
  | resume | sweep | sweepAt | rest | restart => exact plain.elim

theorem Kept.rest {w : World σ} (h : Kept G ds w) (time : Instant) :
    Kept G ds { w with clock := time } :=
  ⟨⟨h.1.ids, h.1.attempts, h.1.stored, h.1.cached⟩, h.2⟩

theorem Kept.restart {w : World σ} (h : Kept G ds w) :
    Kept G ds { w with graphs := [], turns := [] } :=
  ⟨⟨h.1.ids, h.1.attempts, h.1.stored, fun _ hp => absurd hp List.not_mem_nil⟩, h.2⟩

/-- What every step keeps, and what depends on the database and the host alone, is kept by every
operation. -/
theorem Operation.keep_perform (hstep : ∀ w w', Step env G .free w w' → I w → I w')
    (hrest : ∀ w w' : World σ, w'.db = w.db → w'.host = w.host → I w → I w') (o : Operation)
    {w : World σ} (hw : Kept G ds w ∧ I w) :
    Kept G ds (o.perform env w) ∧ I (o.perform env w) := by
  cases o with
  | resume run => exact (Engine.goes_resume run fun _ => trivial).keep_run hstep hw
  | sweep => exact Engine.goes_sweep.keep_run hstep hw
  | sweepAt time => exact (Engine.goes_sweepAt time).keep_run hstep hw
  | rest time => exact ⟨hw.1.rest time, hrest w _ rfl rfl hw.2⟩
  | restart => exact ⟨hw.1.restart, hrest w _ rfl rfl hw.2⟩
  | event | start | advance | recover | cancel =>
    refine keep_of_isPlain hstep (fun _ _ => trivial) (fun _ _ => trivial) ?_ hw
    trivial

/-- What every operation keeps is kept by all of them. -/
theorem keep_performAll_of (hperform : ∀ (o : Operation) (w : World σ), I w → I (o.perform env w))
    (ops : List Operation) {w : World σ} (hw : I w) : I (performAll env w ops) := by
  induction ops generalizing w with
  | nil => exact hw
  | cons o ops ih => exact ih (hperform o w hw)

theorem keep_performAll (hstep : ∀ w w', Step env G .free w w' → I w → I w')
    (hrest : ∀ w w' : World σ, w'.db = w.db → w'.host = w.host → I w → I w')
    (ops : List Operation) {w : World σ} (hw : Kept G ds w ∧ I w) :
    Kept G ds (performAll env w ops) ∧ I (performAll env w ops) :=
  keep_performAll_of (I := fun w => Kept G ds w ∧ I w) (fun o _ => o.keep_perform hstep hrest) ops
    hw

end Operations

/-! ## From the beginning -/

/-- A world in which nothing has happened yet: there are definitions, each with an id of its own,
but no runs and no records. -/
structure World.Pristine (w : World (σ × List Sighting)) : Prop where
  definitions : (w.db.definitions.map (·.id)).Nodup
  runs : w.db.runs = []
  records : w.db.records = []
  graphs : w.graphs = []
  sightings : w.sightings = []

theorem World.Pristine.not_became {w : World (σ × List Sighting)} (h : w.Pristine)
    {before : List Sighting} {d d' : Database} : ¬Became w.sightings w.db before d d' := by
  rintro ⟨-, after, heq⟩
  have hlength := congrArg List.length heq
  simp only [h.sightings, List.map_nil, List.nil_append, List.length_append, List.length_cons,
    List.length_nil] at hlength
  omega

theorem World.Pristine.kept {w : World (σ × List Sighting)} (h : w.Pristine) :
    Kept w.db.HasGraph w.db.definitions w := by
  exact ⟨⟨by simp [h.runs], by simp [h.records],
    fun _ hd _ hg => (Database.hasGraph_iff h.definitions hd).2 hg, by simp [h.graphs]⟩, rfl⟩

namespace World.Pristine

variable {env : Environment σ} {w : World (σ × List Sighting)}

theorem trace_eq (h : w.Pristine) : w.trace = [w.db] := by
  simp [trace, h.sightings]

/-- What is true at the beginning and kept by every step is true throughout a history. -/
theorem forall_trace (h : w.Pristine) {P : Database → Prop} (hfirst : P w.db)
    (hstep : ∀ w₁ w₂, Step env.observed w.db.HasGraph .free w₁ w₂ → P w₁.db → P w₂.db)
    (ops : List Operation) : ∀ d ∈ (performAll env.observed w ops).trace, P d := by
  refine (keep_performAll (I := fun w => ∀ d ∈ w.trace, P d)
    (fun w₁ w₂ hs hw => hs.forall_trace (hstep w₁ w₂ hs) hw) ?_ ops
    ⟨h.kept, by simpa [h.trace_eq] using hfirst⟩).2
  exact fun w₁ w₂ hdb hhost hw => World.trace_congr hdb hhost ▸ hw

/-- Whatever a worker does and whatever fails, it leaves a history. -/
theorem chronicle (h : w.Pristine) (ops : List Operation) :
    Chronicle w.db.HasGraph (performAll env.observed w ops) := by
  have hstart : Chronicle w.db.HasGraph w := by
    refine ⟨?_, ?_, ?_, by simp [h.sightings]⟩ <;> rw [h.trace_eq]
    · exact List.isChain_singleton _
    · simp
    · simp [h.runs]
  refine (keep_performAll (fun _ _ hs hw => hs.chronicle hw) ?_ ops ⟨h.kept, hstart⟩).2
  intro w₁ w₂ hdb hhost hw
  have htrace : w₂.trace = w₁.trace := World.trace_congr hdb hhost
  have hsightings : w₂.sightings = w₁.sightings := congrArg Prod.snd hhost
  exact ⟨htrace ▸ hw.chain, htrace ▸ hw.graphs, htrace ▸ hw.distinct, hsightings ▸ hw.unsent⟩

end World.Pristine

/-! ## A worker in trouble -/

/-- Every new contact gets a mail. -/
def greeting : Definition :=
  { (default : Definition) with
    id := "greeting-1"
    workflow := "greeting"
    version := 1
    graph := .obj [
      ("nodes", .list [
        .obj [("id", .str "start"), ("type", .str "trigger"),
          ("data", .obj [("triggerType", .str "contact_created")])],
        .obj [("id", .str "mail"), ("type", .str "send_email"),
          ("data", .obj [("config", .obj [("template_id", .str "t-1")])])]]),
      ("edges", .list [.obj [("source", .str "start"), ("target", .str "mail")]])] }

/-- Somebody who can be sent a mail. -/
def greeted : Contact :=
  { (default : Contact) with
    id := "c-1"
    fields := Table.ofMembers [("email", .str "mail@example.org")] }

/-- The services answer, but the first `n` times that a run is to be ended the database fails. -/
def troubled : Environment Nat where
  host := {
    freshId := fun _ _ n => ("run-1", n)
    draw := fun n => (.zero, n)
    storage := fun call _ n =>
      if 0 < n ∧ (call = .complete ∨ call = .fail) then
        (⟨[], some (.system .operational "")⟩, n - 1)
      else (⟨[], none⟩, n)
    service := fun call _ n => match call with
      | .getContact .. => (⟨[], .value (some greeted)⟩, n)
      | .sendTemplate .. => (⟨[], .value (.str "m-1")⟩, n)
      | _ => (⟨[], .silence⟩, n)
    wait := fun _ _ n => ([], n) }
  rules := {
    strategy := .forActions
    actionTimeout := .ofInt 10
    webhookTimeout := .ofInt 10
    emitFollowUps := true
    maxChainDepth := 5
    batchSize := 10
    maxConcurrency := 4
    staleAfterSeconds := 900 }

/-- Nothing has happened yet, and a run will fail to be ended twice. -/
def opening : World (Nat × List Sighting) where
  db := { Database.empty with definitions := [greeting] }
  clock := ⟨1⟩
  graphs := []
  turns := []
  calls := []
  waits := []
  host := (2, [])

theorem pristine_opening : opening.Pristine := by
  constructor
  · decide
  all_goals rfl

/-- A run is started, gets stuck after the mail was sent and recorded, and is executed again. -/
def recovery : List Operation := [.start "greeting-1" "c-1" [], .restart, .advance "run-1"]

end CrmAutomation
