import CrmAutomation.Proofs.Engine.Deeds
import CrmAutomation.Proofs.Engine.History
import CrmAutomation.Proofs.Engine.Termination
import CrmAutomation.Proofs.Store.Claims

/-!
# What deeds leave in the log

A deed is seen by the host as one call at most, with the database that it found (`Deed.sighted`).
So what a computation adds to the log are calls of its remit, and the calls to services among them
are those that it makes (`Path.logs`). While runs are only cancelled by others and nothing is
recorded, every database of the log is the one at the start but for these cancels.

A run that has ended is never written to again by anybody: from one database of the log to a later
one its row stays as it is (`Enduring`). In particular a run that is running was not cancelled
before (`Enduring.uncancelled`).
-/

namespace CrmAutomation

variable {σ : Type}

/-! ## Runs that have ended -/

namespace Database

/-- Every run that has ended is still there, as it was. -/
def EndsStay (d d' : Database) : Prop := ∀ r ∈ d.runs, r.state.isTerminal → r ∈ d'.runs

namespace EndsStay

variable {d d' d'' : Database}

theorem refl (d : Database) : d.EndsStay d := fun _ hr _ => hr

theorem trans (h : d.EndsStay d') (h' : d'.EndsStay d'') : d.EndsStay d'' :=
  fun r hr ended => h' r (h r hr ended) ended

end EndsStay

theorem Concedes.endsStay {d d' : Database} (h : d.Concedes d') : d.EndsStay d' := by
  intro r hr ended
  obtain ⟨r', hr', rfl | ⟨active, -⟩⟩ := h.exists_after hr
  · exact hr'
  · exact absurd ended (Run.Later.not_isTerminal active)

end Database

theorem RunCommand.endsStay (now : Instant) (db : Database) (c : RunCommand) :
    db.EndsStay (c.perform now db) := by
  intro r hr ended
  obtain ⟨r', hr', rfl | hwrite⟩ := c.exists_perform now hr
  · exact hr'
  · exact absurd ended (Run.Later.not_isTerminal hwrite.isActive)

section Deeds

variable {env : Environment σ} {remit : Remit} {w w' : World σ}

/-- What a deed does to the database: others cancel runs, and then a command is performed, an
attempt is recorded, or nothing else happens. -/
theorem Deed.database (h : Deed env remit w w') :
    w.db.Concedes w'.db ∨
    (∃ d c, w.db.Concedes d ∧ remit.orders c ∧ ∃ now, w'.db = c.perform now d) ∨
    ∃ d r, w.db.Concedes d ∧ remit.calls .record ∧
      w'.db = { d with records := d.records ++ [r] } := by
  cases h with
  | tick | name | draw | remember | turn => exact Or.inl (.refl _)
  | wait delay => exact Or.inl (w.concedes_waited env delay)
  | interrupt call => exact Or.inl (w.concedes_interrupted env call)
  | serve call => exact Or.inl (w.concedes_served env call)
  | command call c _ _ ordered =>
    exact Or.inr (Or.inl ⟨_, c, w.concedes_interrupted env call, ordered, _, rfl⟩)
  | create d contact node event chainDepth ordered =>
    exact Or.inr (Or.inl ⟨_, _, .refl _, ordered, _, rfl⟩)
  | record r permitted =>
    exact Or.inr (Or.inr ⟨_, r, w.concedes_interrupted env .record, permitted, rfl⟩)

theorem Deed.distinct (h : Deed env remit w w') (hw : Distinct w) : Distinct w' := by
  rw [Distinct] at hw ⊢
  rcases h.database with conceded | ⟨d, c, conceded, -, now, hdb⟩ | ⟨d, r, conceded, -, hdb⟩
  · rwa [conceded.ids_eq]
  · rw [hdb]
    exact c.nodup_ids_perform now (by rwa [conceded.ids_eq])
  · rw [hdb]
    exact conceded.ids_eq ▸ hw

theorem Deed.endsStay (h : Deed env remit w w') : w.db.EndsStay w'.db := by
  rcases h.database with conceded | ⟨d, c, conceded, -, now, hdb⟩ | ⟨d, r, conceded, -, hdb⟩
  · exact conceded.endsStay
  · rw [hdb]
    exact conceded.endsStay.trans (c.endsStay now d)
  · rw [hdb]
    exact conceded.endsStay

theorem Deed.records_prefix (h : Deed env remit w w') : w.db.records <+: w'.db.records := by
  rcases h.database with conceded | ⟨d, c, conceded, -, now, hdb⟩ | ⟨d, r, conceded, -, hdb⟩
  · exact conceded.records_eq ▸ List.prefix_rfl
  · have heq : w'.db.records = w.db.records := by
      rw [hdb, c.records_perform, conceded.records_eq]
    exact heq ▸ List.prefix_rfl
  · rw [hdb, ← conceded.records_eq]
    exact List.prefix_append _ _

/-- What does not record leaves the records as they are. -/
theorem Deed.records_eq (unrecorded : ¬remit.calls .record) (h : Deed env remit w w') :
    w'.db.records = w.db.records := by
  rcases h.database with conceded | ⟨d, c, conceded, -, now, hdb⟩ | ⟨-, -, -, permitted, -⟩
  · exact conceded.records_eq
  · rw [hdb, c.records_perform, conceded.records_eq]
  · exact absurd permitted unrecorded

/-- Without commands and records only others write. -/
theorem Deed.concedes (silent : ∀ c, ¬remit.orders c) (unrecorded : ¬remit.calls .record)
    (h : Deed env remit w w') : w.db.Concedes w'.db := by
  rcases h.database with conceded | ⟨-, c, -, ordered, -⟩ | ⟨-, -, -, permitted, -⟩
  · exact conceded
  · exact absurd ordered (silent c)
  · exact absurd permitted unrecorded

/-- What others do not disturb is kept by what neither commands nor records. -/
theorem Engine.Does.calm {α : Type} {x : Engine σ α} {A : World σ → Prop} (hx : Does env remit x)
    (silent : ∀ c, ¬remit.orders c) (unrecorded : ¬remit.calls .record) (hA : Calm A) :
    Stays (Deed env remit) A x :=
  hx.stays fun w w' h => hA w w' (h.concedes silent unrecorded)

end Deeds

/-! ## The log -/

namespace Sighting

/-- The call to a service that was seen. -/
def call? (s : Sighting) : Option ServiceCall :=
  match s.occasion with
  | .service call => some call
  | _ => none

/-- Whether a call to the database was seen. -/
def isStorage (call : StorageCall) (s : Sighting) : Bool :=
  match s.occasion with
  | .storage c => c == call
  | _ => false

theorem isStorage_iff {call : StorageCall} {s : Sighting} :
    s.isStorage call ↔ s.occasion = .storage call := by
  rcases s with ⟨_ | _ | _ | _, db⟩ <;> simp [isStorage]

end Sighting

section Logs

variable {env : Environment σ} {remit : Remit} {w w₁ w' : World (σ × List Sighting)}
  {made : List Sighting} {id : String}

/-- A deed is seen as one call at most, with the database that it found. -/
theorem Deed.sighted (h : Deed env.observed remit w w') :
    (w'.sightings = w.sightings ∧ w'.calls = w.calls ∧ w'.db = w.db) ∨
    ∃ s : Sighting, s.db = w.db ∧ w'.sightings = w.sightings ++ [s] ∧
      w'.calls = w.calls ++ s.call?.toList ∧
      ∀ call, s.occasion = .storage call → remit.calls call := by
  have seen : ∀ (call : StorageCall), remit.calls call → ∀ c, (Occasion.storage call) = .storage c →
      remit.calls c := by
    rintro call permitted _ ⟨⟩
    exact permitted
  have unchanged : w.calls = w.calls ++ [] := (List.append_nil _).symm
  cases h with
  | tick | draw | remember | turn => exact Or.inl ⟨rfl, rfl, rfl⟩
  | name kind => exact Or.inr ⟨⟨.name kind, w.db⟩, rfl, rfl, unchanged, by simp⟩
  | wait delay => exact Or.inr ⟨⟨.wait, w.db⟩, rfl, rfl, unchanged, by simp⟩
  | interrupt call permitted =>
    exact Or.inr ⟨⟨.storage call, w.db⟩, rfl, rfl, unchanged, seen call permitted⟩
  | serve call => exact Or.inr ⟨⟨.service call, w.db⟩, rfl, rfl, rfl, by simp⟩
  | command call c _ permitted =>
    exact Or.inr ⟨⟨.storage call, w.db⟩, rfl, rfl, unchanged, seen call permitted⟩
  | create => exact Or.inr ⟨⟨.name .run, w.db⟩, rfl, rfl, unchanged, by simp⟩
  | record r permitted =>
    exact Or.inr ⟨⟨.storage .record, w.db⟩, rfl, rfl, unchanged, seen .record permitted⟩

/-- The trace grows with the database, or both stay as they are. -/
theorem Deed.trace (h : Deed env.observed remit w w') :
    w'.trace = w.trace ∧ w'.db = w.db ∨ w'.trace = w.trace ++ [w'.db] := by
  rcases h.sighted with ⟨hsightings, -, hdb⟩ | ⟨s, hs, hsightings, -⟩
  · exact Or.inl ⟨by rw [World.trace, hsightings, hdb, World.trace], hdb⟩
  · exact Or.inr (by simp [World.trace, hsightings, hs])

/-- What a deed keeps holds throughout the trace. -/
theorem Deed.forall_trace {P : Database → Prop} (h : Deed env.observed remit w w')
    (hP : P w.db → P w'.db) (hw : ∀ d ∈ w.trace, P d) : ∀ d ∈ w'.trace, P d := by
  rcases h.trace with ⟨htrace, -⟩ | htrace <;> rw [htrace]
  · exact hw
  · intro d hd
    rcases List.mem_append.1 hd with hd | hd
    · exact hw d hd
    · exact List.mem_singleton.1 hd ▸ hP (hw _ w.db_mem_trace)

/-- What a computation with some remit adds to the log. -/
structure Logs (remit : Remit) (w w' : World (σ × List Sighting)) (made : List Sighting) :
    Prop where
  sightings_eq : w'.sightings = w.sightings ++ made
  calls_eq : w'.calls = w.calls ++ made.filterMap Sighting.call?
  permitted : ∀ s ∈ made, ∀ call, s.occasion = .storage call → remit.calls call
  concedes : (∀ c, ¬remit.orders c) → ¬remit.calls .record →
    w.db.Concedes w'.db ∧ ∀ s ∈ made, w.db.Concedes s.db

theorem Logs.tail (h : Logs remit w w₁ made) (hdeed : Deed env.observed remit w₁ w') :
    ∃ made, Logs remit w w' made := by
  rcases hdeed.sighted with ⟨hsightings, hcalls, hdb⟩ | ⟨s, hs, hsightings, hcalls, hpermitted⟩
  · refine ⟨made, hsightings.trans h.sightings_eq, hcalls.trans h.calls_eq, h.permitted,
      fun silent unrecorded => ?_⟩
    rw [hdb]
    exact h.concedes silent unrecorded
  · refine ⟨made ++ [s], ?_, ?_, ?_, fun silent unrecorded => ?_⟩
    · rw [hsightings, h.sightings_eq, List.append_assoc]
    · rw [hcalls, h.calls_eq, List.filterMap_append, List.append_assoc]
      cases hcall : s.call? <;> simp [hcall]
    · intro o ho
      rcases List.mem_append.1 ho with ho | ho
      · exact h.permitted o ho
      · exact List.mem_singleton.1 ho ▸ hpermitted
    · obtain ⟨hconcedes, hmade⟩ := h.concedes silent unrecorded
      refine ⟨hconcedes.trans (hdeed.concedes silent unrecorded), fun o ho => ?_⟩
      rcases List.mem_append.1 ho with ho | ho
      · exact hmade o ho
      · rw [List.mem_singleton.1 ho, hs]
        exact hconcedes

theorem Path.logs (h : Path (Deed env.observed remit) w w') : ∃ made, Logs remit w w' made := by
  induction h with
  | refl => exact ⟨[], by simp, by simp, by simp, fun _ _ => ⟨.refl _, by simp⟩⟩
  | tail _ hdeed ih =>
    obtain ⟨made, hmade⟩ := ih
    exact hmade.tail hdeed

/-! ## Order -/

/-- Throughout the log runs that have ended stay as they are. -/
def Enduring (w : World (σ × List Sighting)) : Prop := w.trace.Pairwise Database.EndsStay

namespace Enduring

theorem of_deed (h : Deed env.observed remit w w') (hw : Enduring w) : Enduring w' := by
  rcases h.trace with ⟨htrace, -⟩ | htrace <;> rw [Enduring, htrace]
  · exact hw
  · refine List.pairwise_append.2 ⟨hw, List.pairwise_singleton _ _, fun d hd d' hd' => ?_⟩
    obtain rfl := List.mem_singleton.1 hd'
    rcases List.mem_append.1 hd with hd | hd
    · exact ((List.pairwise_append.1 hw).2.2 d hd w.db (by simp)).trans h.endsStay
    · exact List.mem_singleton.1 hd ▸ h.endsStay

theorem of_path (h : Path (Deed env.observed remit) w w') (hw : Enduring w) : Enduring w' :=
  h.keep (fun _ _ => of_deed) hw

/-- From every database of the log to the present one. -/
theorem endsStay (hw : Enduring w) {s : Sighting} (hs : s ∈ w.sightings) : s.db.EndsStay w.db :=
  (List.pairwise_append.1 hw).2.2 s.db (List.mem_map_of_mem hs) w.db (by simp)

/-- From every database of the log to those that come later. -/
theorem endsStay_of_split (hw : Enduring w) {before rest : List Sighting} {s : Sighting}
    (hs : w.sightings = before ++ s :: rest) : ∀ x ∈ rest, s.db.EndsStay x.db := by
  have hpairs := (List.pairwise_append.1 hw).1
  rw [hs] at hpairs
  intro x hx
  exact List.rel_of_pairwise_cons (List.pairwise_append.1 (List.pairwise_map.1 hpairs)).2.1 hx

/-- A run that has not been cancelled now was not cancelled before. -/
theorem uncancelled (hw : Enduring w) {r : Run} (distinct : Distinct w) (hr : r ∈ w.db.runs)
    (hid : r.id = id) (hstate : r.state ≠ .cancelled) :
    ∀ s ∈ w.sightings, Uncancelled id s.db := by
  intro s hs o ho hoid hcancelled
  have hlast := hw.endsStay hs o ho (by rw [hcancelled]; rfl)
  obtain rfl := distinct.eq_of_id_eq hlast hr (hoid.trans hid.symm)
  exact hstate hcancelled

end Enduring

end Logs

/-! ## Operations -/

section Operations

variable {env : Environment σ} {S : World σ → World σ → Prop} {I : World σ → Prop}

/-- What is kept by all that is done with a run or an event is kept by every operation, if it is
kept where a run is started by hand and where the worker rests or is started anew. -/
theorem Operation.keep_of_serves (h : Engine.Serves env S I) (o : Operation) {w : World σ}
    (hstart : ∀ definition contact payload, o = .start definition contact payload →
      I (o.perform env w))
    (hrest : ∀ time, I { w with clock := time }) (hrestart : I { w with graphs := [], turns := [] })
    (hw : I w) : I (o.perform env w) := by
  have hstays : ∀ {α : Type} {x : Engine σ α}, Engine.Stays S I x → I (x.run w).2 :=
    fun hx => (Engine.stays_iff.1 hx w hw).2
  cases o with
  | event e => exact hstays (h.upholds.handleEvent e)
  | start definition contact payload => exact hstart definition contact payload rfl
  | advance run => exact hstays (h.upholds.advance run)
  | resume run => exact hstays (h.resume run)
  | sweep => exact hstays h.sweep
  | sweepAt time => exact hstays (h.sweepAt time)
  | recover time => exact hstays (h.recoverStale time {})
  | cancel run => exact hstays (h.cancel run)
  | rest time => exact hrest time
  | restart => exact hrestart

/-- What every deed keeps, and what depends on the database and the host alone, is kept by every
operation. -/
theorem Operation.keep_of_deed (depths : Int → Prop)
    (shallow : ∀ depth ≤ env.rules.maxChainDepth, depths depth) (hzero : depths 0)
    (hdeed : ∀ w w', Deed env (.handling depths) w w' → I w → I w')
    (hrest : ∀ w w' : World σ, w'.db = w.db → w'.host = w.host → I w → I w') (o : Operation)
    {w : World σ} (hw : I w) : I (o.perform env w) := by
  refine o.keep_of_serves (Engine.serves_of_deed shallow hdeed) ?_
    (fun _ => hrest w _ rfl rfl hw) (hrest w _ rfl rfl hw) hw
  rintro definition contact payload rfl
  simp only [perform]
  split
  · exact (Engine.stays_iff.1 (Engine.stays_startManually shallow hzero hdeed _ contact
      payload) w hw).2
  · exact hw

theorem Enduring.performAll {env : Environment σ} {w : World (σ × List Sighting)} (hw : Enduring w)
    (ops : List Operation) : Enduring (performAll env.observed w ops) :=
  keep_performAll_of (fun o _ => o.keep_of_deed (fun _ => True) (fun _ _ => trivial)
    trivial (fun _ _ => of_deed)
    fun w w' hdb hhost hw => by rwa [Enduring, World.trace_congr hdb hhost]) ops hw

end Operations

/-- A world to be observed from now on. -/
def World.observed (w : World σ) : World (σ × List Sighting) where
  db := w.db
  clock := w.clock
  graphs := w.graphs
  turns := w.turns
  calls := w.calls
  waits := w.waits
  host := (w.host, [])

theorem World.enduring_observed (w : World σ) : Enduring w.observed :=
  List.pairwise_singleton _ _

end CrmAutomation
