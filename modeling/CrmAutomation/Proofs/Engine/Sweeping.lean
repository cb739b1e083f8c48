import CrmAutomation.Proofs.Engine.Awakening
import CrmAutomation.Proofs.Engine.Bystanders
import CrmAutomation.Proofs.Engine.Editing
import CrmAutomation.Proofs.Engine.Matching
import CrmAutomation.Proofs.Store.Due

/-!
# What a sweep resumes

A sweep lists runs and handles their claims one after the other. In a database that does not fail,
and where nobody else writes to the runs, each claim is won and its run executed to the end
(`Engine.exists_handles`, by induction on the claims): a run keeps the row with which it was listed
until it is its turn, since the executions of the others leave it alone, and after its turn it is
not due any more. So a sweep resumes the runs that have been due for longest, takes over those that
are stale, and leaves all other suspended runs as they are (`Engine.sweep_resumes_longestDue`).
-/

namespace CrmAutomation

variable {σ : Type} {time : Instant} {env : Environment σ} {w : World σ} {r : Run}

/-! ## Taking runs -/

/-- A column holds the lock of the run, and the next one. -/
def Run.Raisable (r : Run) : Prop :=
  Database.fitsColumn r.lock ∧ Database.fitsColumn (r.lock + 1)

/-- The row of a run that was taken. -/
structure Run.Taken (r r' : Run) : Prop where
  id_eq : r'.id = r.id
  definition_eq : r'.definition = r.definition
  lock_eq : r'.lock = r.lock + 1
  running : r'.state = .running

namespace Engine

/-- A way to take runs that are in the state `s`: where nobody has written to the run since it was
seen, it is taken, and no other row changes. -/
structure Takes (env : Environment σ) (s : RunState) (take : Claim → Engine σ Bool) : Prop where
  goes : ∀ (G : String → Graph → Prop) (ds : List Definition) c, Goes env G .free ds (take c)
  claims : ∀ c, Does env .claiming (take c)
  wins : ∀ {w : World σ} {r : Run}, w.db.run? r.id = some r → r.state = s → r.Raisable →
    ∃ w' r', (take (Database.claimOf r)).run w = (.ok true, w') ∧
      w'.db.run? r.id = some r' ∧ r.Taken r' ∧
      (∀ q, q.id ≠ r.id → w.db.run? q.id = some q → w'.db.run? q.id = some q) ∧
      ∀ o ∈ w'.db.runs, o.id ≠ r.id → o ∈ w.db.runs

section Taking

variable (reliable : env.host.Reliable) (quiet : env.host.CancelsNothing)

include reliable quiet

/-- A write that compares the lock of a run takes it if it passes. -/
theorem exists_raiseLock (call : StorageCall) (guard : Run → Bool)
    (change : Instant → Run → Run) (hchange : ∀ now o, (change now o).id = o.id)
    (row : w.db.run? r.id = some r) (passes : guard r = true) (raisable : r.Raisable) :
    ∃ w' now,
      (raiseLock env call r.lock fun now => Database.updateRun r.id guard (change now)).run w
        = (.ok true, w') ∧
      w'.db.run? r.id = some (change now r) ∧
      (∀ q, q.id ≠ r.id → w.db.run? q.id = some q → w'.db.run? q.id = some q) ∧
      ∀ o ∈ w'.db.runs, o.id ≠ r.id → o ∈ w.db.runs := by
  let now := (w.interrupted env call).clock.later 1
  obtain ⟨won, found⟩ :=
    Database.run?_updateRun_of_run? (hchange now) row passes
  have run :
      (raiseLock env call r.lock fun now => Database.updateRun r.id guard (change now)).run w =
      (.ok true, { w.interrupted env call with
        clock := now, db := (w.db.updateRun r.id guard (change now)).2 }) := by
    rw [raiseLock, run_interrupt_bind, reliable]
    dsimp only
    rw [if_pos (by simp [raisable.1, raisable.2]), run_commit, w.db_interrupted quiet, ← won]
  refine ⟨_, now, run, found, fun q ne hq => ?_, fun o ho ne => ?_⟩
  · exact (Database.run?_updateRun_of_ne ne.symm (hchange now)).trans hq
  · obtain ⟨q, hq, rfl | ⟨hid, -, rfl⟩⟩ := Database.exists_of_mem_updateRun ho
    · exact hq
    · exact absurd ((hchange now q).trans hid) ne

theorem takes_claimSuspended : Takes env .suspended (claimSuspended env) where
  goes _ _ c := goes_claimSuspended c fun _ => trivial
  claims c := does_raiseLock _ _ (.claimSuspended c) rfl (by nofun) trivial fun _ _ => rfl
  wins {w r} row rested raisable := by
    obtain ⟨w', now, run, found, kept, others⟩ := exists_raiseLock reliable quiet .claimSuspended
      (fun o => o.state == .suspended && o.lock == r.lock)
      (fun now o => { o with
        state := .running, resumeAt := none, lock := r.lock + 1, updatedAt := now })
      (fun _ _ => rfl) row (by simp [rested]) raisable
    exact ⟨w', _, run, found, ⟨rfl, rfl, rfl, rfl⟩, kept, others⟩

theorem takes_claimStale : Takes env .running (claimStale env) where
  goes _ _ c := goes_claimStale c fun _ => trivial
  claims c := does_raiseLock _ _ (.claimStale c) rfl (by nofun) trivial fun _ _ => rfl
  wins {w r} row running raisable := by
    obtain ⟨w', now, run, found, kept, others⟩ := exists_raiseLock reliable quiet .claimStale
      (fun o => Database.isRunning o && o.lock == r.lock)
      (fun now o => { o with lock := r.lock + 1, updatedAt := now })
      (fun _ _ => rfl) row (by simp [Database.isRunning, running]) raisable
    exact ⟨w', _, run, found, ⟨rfl, rfl, rfl, running⟩, kept, others⟩

end Taking

end Engine

/-! ## Worlds between two claims -/

/-- A command from within an advance raises no lock. -/
theorem RunCommand.exists_lock {G : String → Graph → Prop} {c : RunCommand} {db : Database}
    {now : Instant} (allowed : c.Allowed G .own db) (hr : r ∈ (c.perform now db).runs) :
    (∃ o ∈ db.runs, o.id = r.id ∧ o.lock = r.lock) ∨ r.lock = 0 := by
  have written {id : String} {guard : Run → Bool} {change : Run → Run}
      (hr : r ∈ (db.updateRun id guard change).2.runs)
      (hchange : ∀ o, (change o).id = o.id ∧ (change o).lock = o.lock) :
      ∃ o ∈ db.runs, o.id = r.id ∧ o.lock = r.lock := by
    obtain ⟨o, ho, rfl | ⟨-, -, rfl⟩⟩ := Database.exists_of_mem_updateRun hr
    · exact ⟨r, ho, rfl, rfl⟩
    · exact ⟨o, ho, (hchange o).1.symm, (hchange o).2.symm⟩
  cases c with
  | create id d contact node event chainDepth =>
    rcases db.createRun_cases now id d contact node event chainDepth with ⟨-, heq⟩ | ⟨-, heq⟩ <;>
      rw [perform, heq] at hr
    · exact .inl ⟨r, hr, rfl, rfl⟩
    · rcases List.mem_append.1 hr with hr | hr
      · exact .inl ⟨r, hr, rfl, rfl⟩
      · exact .inr (List.mem_singleton.1 hr ▸ rfl)
  | moveTo | suspend | complete | fail => exact .inl (written hr fun _ => ⟨rfl, rfl⟩)
  | cancel | claimSuspended | release | claimStale => exact allowed.elim

/-- The locks of runs that were not claimed can be raised, also after an execution. -/
theorem Database.Effect.raisable {G : String → Graph → Prop} {d d' : Database} {taken : List String}
    (h : d.Effect G .own d') (hd : ∀ r ∈ d.runs, r.id ∉ taken → r.Raisable) :
    ∀ r ∈ d'.runs, r.id ∉ taken → r.Raisable := by
  have hconceded {d₁ : Database} (conceded : d.Concedes d₁) :
      ∀ r ∈ d₁.runs, r.id ∉ taken → r.Raisable := by
    intro r' hr' free
    obtain ⟨r, hr, rfl | ⟨-, now, rfl⟩⟩ := conceded.exists_before hr'
    · exact hd r' hr free
    · exact hd r hr free
  cases h with
  | concede conceded => exact hconceded conceded
  | record conceded => exact fun r hr free => hconceded conceded r hr free
  | command conceded now c allowed =>
    intro r hr free
    rcases RunCommand.exists_lock allowed hr with ⟨o, ho, hid, hlock⟩ | zero
    · have := hconceded conceded o ho (hid ▸ free)
      rwa [Run.Raisable, hlock] at this
    · rw [Run.Raisable, zero]
      decide

/-- A sweep at `time` has come to a world from one that was attained, and has claimed no other runs
than those with the ids. -/
structure Swept (time : Instant) (taken : List String) (w : World σ) : Prop where
  regular : Regular w
  versioned : Versioned w.db.definitions
  begun : time.micros ≤ w.clock.micros
  raisable : ∀ r ∈ w.db.runs, r.id ∉ taken → r.Raisable

namespace Swept

variable {taken : List String}

/-- Runs are of versions that were published, and delays of these last a minute or more. -/
theorem lasting (h : Swept time taken w) (hr : r ∈ w.db.runs) :
    Lasting w.db.HasGraph r.definition := by
  obtain ⟨d, ⟨hd, left⟩, hid, -⟩ := h.regular.uses.runs r hr
  obtain ⟨g, -, sound, -⟩ := h.versioned.valid d hd left
  obtain ⟨parsed, publishable⟩ := checkStructure_eq_iff.1 sound
  intro g' hg' n hn minutes hconfig
  have hparse : Engine.parse d.graph = .ok g' :=
    (Database.hasGraph_iff h.regular.catalogued.ids hd).1 (hid ▸ hg')
  obtain rfl : g = g' := by simpa [Engine.parse, parsed] using hparse
  simpa [NodeConfig.Complete, hconfig] using publishable.complete n hn

/-- What goes by steps and uses what was published leads on, if it raises no locks but of runs that
are claimed. -/
theorem of_goes {α : Type} {scope : Scope} {x : Engine σ α} (h : Swept time taken w)
    (hgoes : Engine.Goes env w.db.HasGraph scope w.db.definitions x)
    (huses : Engine.Stays (Deed env (.employing (Definition.ReleasedIn w.db.definitions)))
      (Uses w.db.definitions) x)
    (raisable : ∀ r ∈ (x.run w).2.db.runs, r.id ∉ taken → r.Raisable) :
    Swept time taken (x.run w).2 := by
  obtain ⟨kept, begun⟩ := hgoes.keep_run (I := fun w => time.micros ≤ w.clock.micros)
    (fun _ _ hstep begun => begun.trans hstep.timed.1) ⟨h.regular.kept, h.begun⟩
  exact ⟨h.regular.of_goes hgoes huses, kept.2.symm ▸ h.versioned, begun, raisable⟩

theorem serves (h : Swept time taken w) :
    Engine.Serves env (Deed env (.employing (Definition.ReleasedIn w.db.definitions)))
      (Uses w.db.definitions) :=
  Engine.serves_employs h.regular.named fun _ => Definition.releasedIn_of_published

theorem interrupted (h : Swept time taken w) (quiet : env.host.CancelsNothing)
    (call : StorageCall) : Swept time taken (w.interrupted env call) := by
  have same := w.db_interrupted quiet call
  refine ⟨h.regular.of_concedes (w.concedes_interrupted env call) rfl, same ▸ h.versioned,
    h.begun.trans ?_, same ▸ h.raisable⟩
  change w.clock.micros ≤ (w.clock.later 1).micros
  rw [Instant.micros_later_one]
  exact Nat.le_succ _

theorem mono {taken' : List String} (h : Swept time taken w) (more : taken ⊆ taken') :
    Swept time taken' w :=
  ⟨h.regular, h.versioned, h.begun, fun r hr free => h.raisable r hr fun hid => free (more hid)⟩

end Swept

namespace Engine

variable {taken : List String}

theorem swept_take {s : RunState} {take : Claim → Engine σ Bool} (takes : Takes env s take)
    (h : Swept time taken w) (c : Claim)
    (raisable : ∀ r ∈ ((take c).run w).2.db.runs, r.id ∉ taken → r.Raisable) :
    Swept time taken ((take c).run w).2 :=
  h.of_goes (takes.goes _ _ c) (Does.stays_employs h.regular.named
    ((takes.claims c).mono Remit.claiming_within_employing)) raisable

theorem swept_runFrom (h : Swept time taken w) (resuming : Bool) (id : String) :
    Swept time taken ((runFrom env (routeFollowUps env) resuming id).run w).2 := by
  have serves : Serves env _ _ := h.serves
  have goes : Goes env w.db.HasGraph .own w.db.definitions
      (runFrom env (routeFollowUps env) resuming id) :=
    goes_runFrom goes_routeFollowUps resuming id fun _ _ => trivial
  refine h.of_goes goes (serves.runFrom serves.upholds.routeFollowUps resuming id) ?_
  exact (goes.keep_run (I := fun w => ∀ r ∈ w.db.runs, r.id ∉ taken → r.Raisable)
    (fun _ _ hstep => hstep.effect.raisable) ⟨h.regular.kept, h.raisable⟩).2

/-! ## Claims one after the other -/

/-- The claims are won and their runs executed to the end, one after the other. -/
inductive Handles (take : Claim → Engine σ Bool) (run : String → Engine σ Outcome) :
    List Claim → World σ → World σ → Prop where
  | nil (w : World σ) : Handles take run [] w w
  | cons {c : Claim} {claims : List Claim} {w w₁ w₂ w' : World σ} {o : Outcome}
      (won : (take c).run w = (.ok true, w₁)) (executed : (run c.run).run w₁ = (.ok o, w₂))
      (rest : Handles take run claims w₂ w') : Handles take run (c :: claims) w w'

/-- Where every claim is won and no execution fails, the report tells of nothing else. -/
theorem Handles.run_handleClaims {take : Claim → Engine σ Bool} {run : String → Engine σ Outcome}
    {claims : List Claim} {w' : World σ} (h : Handles take run claims w w')
    (releaseAt : Option Instant) (report : SweepReport) :
    (handleClaims env take run releaseAt report claims).run w =
      (.ok { report with claimed := report.claimed + claims.length }, w') := by
  induction h generalizing report with
  | nil w => rfl
  | @cons c claims w w₁ w₂ w' o won executed rest ih =>
    have handled : (handleClaim env take run releaseAt report c).run w =
        (.ok { report with claimed := report.claimed + 1 }, w₂) := by
      have taken : (attempt (take c)).run w = (.ok (.ok true), w₁) := by
        rw [run_attempt, won]
      have ended : (attempt (run c.run)).run w₁ = (.ok (.ok o), w₂) := by
        rw [run_attempt, executed]
      rw [handleClaim, run_bind, taken]
      dsimp only
      rw [run_bind, ended]
      rfl
    rw [handleClaims, run_bind, handled]
    dsimp only
    rw [ih]
    simp only [List.length_cons, Nat.add_right_comm, Nat.add_assoc]

/-- The row of a run after its turn in a sweep at `time`. -/
structure Handled (time : Instant) (r r' : Run) : Prop where
  lock_eq : r'.lock = r.lock + 1
  idle : r'.state ≠ .running
  later : r'.state = .suspended → ∃ t, r'.resumeAt = some t ∧ time.micros < t.micros

/-- Runs that are found as they were listed are taken and executed one after the other, each in the
row in which it was listed; other runs stay as they are. -/
theorem exists_handles {s : RunState} {take : Claim → Engine σ Bool}
    (reliable : env.host.Reliable) (quiet : env.host.CancelsNothing) (takes : Takes env s take)
    (resuming : Bool) (rs : List Run) {w : World σ} (swept : Swept time taken w)
    (distinct : (rs.map (·.id)).Nodup)
    (found : ∀ r ∈ rs, w.db.run? r.id = some r ∧ r.state = s ∧ r.Raisable ∧ r.id ∈ taken) :
    ∃ w', Handles take (runFrom env (routeFollowUps env) resuming) (rs.map Database.claimOf) w w' ∧
      Swept time taken w' ∧
      (∀ r ∈ rs, ∃ r', w'.db.run? r.id = some r' ∧ Handled time r r') ∧
      ∀ q, q.id ∉ rs.map (·.id) → w.db.run? q.id = some q → w'.db.run? q.id = some q := by
  induction rs generalizing w with
  | nil => exact ⟨w, .nil w, swept, by simp, fun _ _ row => row⟩
  | cons r rs ih =>
    obtain ⟨row, state, raisable, known⟩ := found r List.mem_cons_self
    obtain ⟨new, distinct⟩ := List.nodup_cons.1 distinct
    -- The claim is won, and changes no other row.
    obtain ⟨w₁, r₁, won, row₁, htaken, kept₁, others⟩ := takes.wins row state raisable
    have swept₁ : Swept time taken w₁ := by
      have := swept_take takes swept (Database.claimOf r)
      rw [won] at this
      exact this fun o ho free => swept.raisable o
        (others o ho fun heq => free (heq ▸ known)) free
    -- The execution puts the run to rest, and leaves the other rows alone.
    obtain ⟨out, w₂, r₂, executed, row₂, onward, idle⟩ := exists_runFrom_onward reliable
      swept₁.regular.kept swept₁.begun (htaken.id_eq.symm ▸ row₁) htaken.running
      (swept₁.lasting (List.mem_of_find?_eq_some row₁)) resuming
    rw [htaken.id_eq] at executed row₂
    have swept₂ : Swept time taken w₂ := by
      have after : Swept time taken
          ((runFrom env (routeFollowUps env) resuming r.id).run w₁).2 :=
        swept_runFrom swept₁ resuming r.id
      rwa [executed] at after
    have kept₂ (q : Run) (ne : q.id ≠ r.id) (hq : w.db.run? q.id = some q) :
        w₂.db.run? q.id = some q := by
      have := (stays_iff.1 (stays_runFrom_row quiet resuming ne.symm) w₁ (kept₁ q ne hq)).2
      rwa [executed] at this
    have apart (q : Run) (hq : q ∈ rs) : q.id ≠ r.id := fun heq =>
      new (List.mem_map.2 ⟨q, hq, heq⟩)
    obtain ⟨w', rest, swept', handled, kept'⟩ := ih swept₂ distinct fun q hq => by
      obtain ⟨hrow, others⟩ := found q (List.mem_cons_of_mem _ hq)
      exact ⟨kept₂ q (apart q hq) hrow, others⟩
    refine ⟨w', .cons won executed rest, swept', fun q hq => ?_, fun q free hq => ?_⟩
    · rcases List.mem_cons.1 hq with rfl | hq
      · have hid : r₂.id = q.id := onward.id_eq.trans htaken.id_eq
        refine ⟨r₂, ?_, onward.lock_eq.trans htaken.lock_eq, idle, onward.later⟩
        rw [← hid]
        exact kept' r₂ (hid ▸ new) (hid ▸ row₂)
      · exact handled q hq
    · rw [List.map_cons, List.mem_cons, not_or] at free
      exact kept' q free.2 (kept₂ q free.1 hq)

/-! ## Sweeps -/

theorem Handles.run_handleAll {take : Claim → Engine σ Bool} {run : String → Engine σ Outcome}
    {claims : List Claim} {w' : World σ} (h : Handles take run claims w w')
    (workers : 0 < env.rules.maxConcurrency) (releaseAt : Option Instant) (report : SweepReport) :
    (handleAll env take run releaseAt report claims).run w =
      (.ok { report with claimed := report.claimed + claims.length }, w') := by
  have room : ¬((!claims.isEmpty && decide (env.rules.maxConcurrency < 0)) = true) := by
    simp only [Bool.and_eq_true, decide_eq_true_eq, not_and]
    omega
  rw [handleAll, if_neg room, h.run_handleClaims]

section Sweeps

variable (reliable : env.host.Reliable) (quiet : env.host.CancelsNothing)
  (workers : 0 < env.rules.maxConcurrency) {b : Nat} (size : env.rules.batchSize = b)
  (fits : Database.fitsColumn b)

include reliable quiet

/-- Claims are listed as the database has them. -/
theorem run_listed (call : StorageCall) {query : Database → Except Failure (List Claim)}
    {claims : List Claim} (listed : query w.db = .ok claims) :
    (look env call query >>= ofExcept).run w = (.ok claims, w.interrupted env call) := by
  rw [run_bind, run_look, reliable]
  dsimp only
  rw [w.db_interrupted quiet, listed]
  rfl

/-- Rows that were listed are taken and executed one after the other, and other rows stay as they
are. -/
theorem exists_handles_rows {s : RunState} {take : Claim → Engine σ Bool} (takes : Takes env s take)
    (resuming : Bool) (swept : Swept time taken w) (call : StorageCall) {rs : List Run}
    (once : (rs.map (·.id)).Nodup)
    (rows : ∀ r ∈ rs, r ∈ w.db.runs ∧ r.state = s ∧ r.Raisable) :
    ∃ after, Handles take (runFrom env (routeFollowUps env) resuming) (rs.map Database.claimOf)
        (w.interrupted env call) after ∧
      Swept time (taken ++ rs.map (·.id)) after ∧
      (∀ r ∈ rs, ∃ r', after.db.run? r.id = some r' ∧ Handled time r r') ∧
      ∀ q ∈ w.db.runs, q ∉ rs → after.db.run? q.id = some q := by
  have ids := swept.regular.uses.coherent.ids
  have same : (w.interrupted env call).db = w.db := w.db_interrupted quiet call
  have found {q : Run} (hq : q ∈ w.db.runs) : (w.interrupted env call).db.run? q.id = some q :=
    same ▸ (Database.run?_eq_some_iff ids).2 ⟨hq, rfl⟩
  have more := (swept.mono (List.subset_append_left taken (rs.map (·.id)))).interrupted quiet call
  obtain ⟨after, handles, swept', handled, kept⟩ :=
    exists_handles reliable quiet takes resuming rs more once fun r hr => by
      obtain ⟨hmem, state, raisable⟩ := rows r hr
      exact ⟨found hmem, state, raisable, List.mem_append_right _ (List.mem_map_of_mem hr)⟩
  refine ⟨after, handles, swept', handled, fun q hq left => kept q (fun hid => ?_) (found hq)⟩
  obtain ⟨r, hr, heq⟩ := List.mem_map.1 hid
  obtain rfl := List.inj_on_of_nodup_map ids (rows r hr).1 hq heq
  exact left hr

include size fits

/-- The runs that have been due for longest are resumed. -/
theorem exists_resumed (swept : Swept time taken w) (staggered : w.db.Staggered)
    (raisable : ∀ r ∈ w.db.runs, r.Raisable) :
    ∃ (chosen : List Run) (listed middle : World σ),
      w.db.LongestDue time b chosen ∧ (chosen.map (·.id)).Nodup ∧
      (dueRuns env time env.rules.batchSize).run w = (.ok (chosen.map Database.claimOf), listed) ∧
      listed.db = w.db ∧
      Handles (claimSuspended env) (resume env) (chosen.map Database.claimOf) listed middle ∧
      Swept time (taken ++ chosen.map (·.id)) middle ∧
      (∀ r ∈ chosen, ∃ r', middle.db.run? r.id = some r' ∧ Handled time r r') ∧
      ∀ q ∈ w.db.runs, q ∉ chosen → middle.db.run? q.id = some q := by
  have ids := swept.regular.uses.coherent.ids
  obtain ⟨chosen, longest, hchosen⟩ := Database.exists_longestDue ids staggered time b
  have once := longest.nodup ids
  have listing : (dueRuns env time env.rules.batchSize).run w =
      (.ok (chosen.map Database.claimOf), w.interrupted env .dueRuns) := by
    refine run_listed reliable quiet .dueRuns ?_
    rw [size, Database.bound, if_pos fits]
    exact congrArg Except.ok hchosen
  obtain ⟨middle, handling⟩ := exists_handles_rows reliable quiet
    (takes_claimSuspended reliable quiet) true swept .dueRuns once fun r hr => by
      obtain ⟨hmem, due⟩ := longest.due r hr
      exact ⟨hmem, (Run.isDue_iff.1 due).1, raisable r hmem⟩
  exact ⟨chosen, _, middle, longest, once, listing, w.db_interrupted quiet _, handling⟩

include workers

/-- The runs that are stale are taken over, if no run is running that was claimed before. -/
theorem exists_recovered (swept : Swept time taken w)
    (idle : ∀ r ∈ w.db.runs, r.id ∈ taken → r.state ≠ .running) {cutoff : Instant}
    (reckoned : time.addSeconds (-env.rules.staleAfterSeconds) = .ok cutoff)
    (report : SweepReport) :
    ∃ (stale : List Run) (searched after : World σ),
      (∀ r ∈ stale, r ∈ w.db.runs ∧ r.state = .running) ∧
      searched.db = w.db ∧
      Handles (claimStale env) (advance env) (stale.map Database.claimOf) searched after ∧
      (recoverStale env time report).run w =
        (.ok { report with recovered := stale.length }, after) ∧
      ∀ q, q.state ≠ .running → w.db.run? q.id = some q → after.db.run? q.id = some q := by
  obtain ⟨stale, hstale, once, running⟩ :=
    Database.exists_stale swept.regular.uses.coherent.ids cutoff b
  have searching : (staleRuns env cutoff env.rules.batchSize).run w =
      (.ok (stale.map Database.claimOf), w.interrupted env .staleRuns) := by
    refine run_listed reliable quiet .staleRuns ?_
    rw [size, Database.bound, if_pos fits]
    exact congrArg Except.ok hstale
  obtain ⟨after, recovered, -, -, kept⟩ := exists_handles_rows reliable quiet
    (takes_claimStale reliable quiet) false swept .staleRuns once fun r hr => by
      obtain ⟨hmem, hrunning⟩ := running r hr
      exact ⟨hmem, hrunning, swept.raisable r hmem fun hid => idle r hmem hid hrunning⟩
  refine ⟨stale, _, after, running, w.db_interrupted quiet _, recovered, ?_,
    fun q rests hq => ?_⟩
  · have taking : Handles (claimStale env) (advance env) (stale.map Database.claimOf) _ after :=
      recovered
    rw [recoverStale, reckoned, run_bind]
    change (staleRuns env cutoff env.rules.batchSize >>= _).run w = _
    rw [run_bind, searching]
    dsimp only
    rw [run_bind, taking.run_handleAll workers]
    simp only [List.length_map, Nat.add_sub_cancel_left]
    rfl
  · exact kept q (List.mem_of_find?_eq_some hq) fun hmem => rests (running q hmem).2

end Sweeps

/-- A sweep in a world to which requests have led, whatever happened before, whatever the services
answer and however the workflows trigger each other, where the database does not fail, with columns
that hold the locks and the size of a batch, nothing is cancelled and no two suspended runs are due
at the same time. With a batch of `b` runs it lists the `b` runs that have been due for longest, or
all that are due if there are fewer. It claims each of them once, wins the claim and resumes the run
to the end; then it takes over runs that are stale in the same way; and nothing else is in its
report. Afterwards the locks of the runs that it resumed have been raised once, none of them is due
at the time of the sweep, and every other suspended run is as it was. -/
theorem sweep_resumes_longestDue (attained : w.Attained) (reliable : env.host.Reliable)
    (quiet : env.host.CancelsNothing) (staggered : w.db.Staggered)
    (raisable : ∀ r ∈ w.db.runs, r.Raisable) (workers : 0 < env.rules.maxConcurrency) {b : Nat}
    (size : env.rules.batchSize = b) (fits : Database.fitsColumn b) {cutoff : Instant}
    (reckoned : (w.clock.later 1).addSeconds (-env.rules.staleAfterSeconds) = .ok cutoff) :
    ∃ (chosen stale : List Run) (listed middle searched after : World σ),
      w.db.LongestDue (w.clock.later 1) b chosen ∧ (chosen.map (·.id)).Nodup ∧
      (∀ r ∈ stale, r ∈ middle.db.runs ∧ r.state = .running) ∧
      listed.db = w.db ∧
      Handles (claimSuspended env) (resume env) (chosen.map Database.claimOf) listed middle ∧
      searched.db = middle.db ∧
      Handles (claimStale env) (advance env) (stale.map Database.claimOf) searched after ∧
      (sweep env).run w = (.ok {
        due := chosen.length
        claimed := chosen.length
        lost := 0
        recovered := stale.length
        errors := [] }, after) ∧
      (∀ r ∈ chosen, ∃ r', after.db.run? r.id = some r' ∧
        Handled (w.clock.later 1) r r') ∧
      ∀ q ∈ w.db.runs, q.state = .suspended → q ∉ chosen → after.db.run? q.id = some q := by
  have swept : Swept (w.clock.later 1) [] { w with clock := w.clock.later 1 } :=
    ⟨attained.regular.of_concedes (.refl _) rfl, attained.versioned, Nat.le_refl _,
      fun r hr _ => raisable r hr⟩
  obtain ⟨chosen, listed, middle, longest, once, listing, same, resumed, swept', handled, kept⟩ :=
    exists_resumed reliable quiet size fits swept staggered raisable
  have ids' := swept'.regular.uses.coherent.ids
  obtain ⟨stale, searched, after, running, same', recovered, recovering, kept'⟩ :=
    exists_recovered reliable quiet workers size fits swept' (fun r hr hid => by
      obtain ⟨q, hq, heq⟩ := List.mem_map.1 hid
      obtain ⟨q', found, hq'⟩ := handled q hq
      have := (Database.run?_eq_some_iff ids').2 ⟨hr, heq.symm⟩
      obtain rfl := Option.some.inj (this.symm.trans found)
      exact hq'.idle) reckoned { due := chosen.length, claimed := chosen.length }
  refine ⟨chosen, stale, listed, middle, searched, after, longest, once, running, same, resumed,
    same', recovered, ?_, fun r hr => ?_, fun q hq rested left => ?_⟩
  · have reading : (now : Engine σ Instant).run w =
      (.ok (w.clock.later 1), { w with clock := w.clock.later 1 }) := rfl
    rw [sweep, run_bind, reading]
    dsimp only
    rw [sweepAt, run_bind, listing]
    dsimp only
    rw [run_bind, resumed.run_handleAll workers]
    simp only [List.length_map, Nat.zero_add]
    exact recovering
  · obtain ⟨r', found, hr'⟩ := handled r hr
    have hid : r'.id = r.id := by simpa using List.find?_some found
    exact ⟨r', hid ▸ kept' r' hr'.idle (hid ▸ found), hr'⟩
  · exact kept' q (by simp [rested]) (kept q hq left)

/-- The world after an hour and a quarter, when one contact has waited long enough and another one,
who was given the tag half an hour later, has not. -/
def overdue : World Unit :=
  (Request.operate (.rest ⟨75 * Instant.microsPerMinute⟩)).perform careful
    ((Request.operate (.event (tagging "c-2"))).perform careful
      ((Request.operate (.rest ⟨30 * Instant.microsPerMinute⟩)).perform careful pausing))

/-- Of two contacts that wait the one goes on that has waited long enough. -/
theorem sweep_resumes_longestDue_of_overdue :
    overdue.Attained ∧ careful.host.Reliable ∧ careful.host.CancelsNothing ∧
    overdue.db.Staggered ∧ (∀ r ∈ overdue.db.runs, r.Raisable) ∧
    0 < careful.rules.maxConcurrency ∧ careful.rules.batchSize = (10 : Nat) ∧
    Database.fitsColumn (10 : Nat) ∧
    (overdue.clock.later 1).addSeconds (-careful.rules.staleAfterSeconds) = .ok ⟨3600000001⟩ ∧
    ∃ (r : Run) (after : World Unit), overdue.db.LongestDue (overdue.clock.later 1) 10 [r] ∧
      (sweep careful).run overdue = (.ok { due := 1, claimed := 1 }, after) ∧
      (after.db.runs.map fun r => (r.contact, r.state)) =
        [("c-1", .completed), ("c-2", .suspended)] ∧
      ∀ q ∈ overdue.db.runs, q.state = .suspended → q ≠ r → after.db.run? q.id = some q := by
  have named : ∀ id, careful.host.NamesDefinition id → ':' ∉ id.toList := by
    rintro _ ⟨workflow, version, db, s, rfl⟩
    exact (by decide : ':' ∉ "pause-1".toList)
  have attained : overdue.Attained := by
    refine .serve (.serve (.serve (.serve (.serve (.serve (.empty rfl rfl) careful named _ ?_)
      careful named _ ?_) careful named _ ?_) careful named _ ?_) careful named _ ?_) careful
      named _ ?_ <;> trivial
  have reliable : careful.host.Reliable := fun _ _ _ => rfl
  have quiet : careful.host.CancelsNothing := fun id => by
    refine ⟨fun call db s => List.not_mem_nil, fun call db s => ?_, fun delay db s =>
      List.not_mem_nil⟩
    cases call <;> exact List.not_mem_nil
  have staggered : overdue.db.Staggered := fun r hr q hq _ _ heq =>
    List.inj_on_of_nodup_map (f := fun r : Run => r.resumeAt) (by decide +kernel) hr hq heq
  have raisable : ∀ r ∈ overdue.db.runs, r.Raisable :=
    (by decide +kernel : ∀ r ∈ overdue.db.runs,
      Database.fitsColumn r.lock ∧ Database.fitsColumn (r.lock + 1))
  have reckoned : (overdue.clock.later 1).addSeconds (-careful.rules.staleAfterSeconds) =
      .ok ⟨3600000001⟩ := by rfl
  obtain ⟨chosen, stale, -, -, -, after, longest, -, -, -, -, -, -, swept, -, kept⟩ :=
    sweep_resumes_longestDue attained reliable quiet staggered raisable (by decide) rfl
      (by decide) reckoned
  have report : ((sweep careful).run overdue).1.toOption.map (fun r => (r.due, r.recovered)) =
      some (1, 0) := by
    decide +kernel
  have rows : (((sweep careful).run overdue).2.db.runs.map fun r => (r.contact, r.state)) =
      [("c-1", .completed), ("c-2", .suspended)] := by
    decide +kernel
  rw [swept] at report rows
  obtain ⟨one, none⟩ := Prod.mk.inj (Option.some.inj report)
  obtain ⟨r, rfl⟩ := List.length_eq_one_iff.1 one
  dsimp only at none
  rw [none] at swept
  exact ⟨attained, reliable, quiet, staggered, raisable, by decide, rfl, by decide, reckoned, r,
    after, longest, swept, rows, fun q hq rested ne => kept q hq rested (by simpa using ne)⟩

end Engine

end CrmAutomation
