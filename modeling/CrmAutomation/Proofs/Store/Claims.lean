import CrmAutomation.Proofs.Store.Lifecycle

/-!
# Claims and takeovers

Workers share the table of runs. Each of them sends commands, and the database performs them one at
a time in some order (`Database.follow`), so what is said of every list of commands is said of
every interleaving of any number of workers.

A claim compares the lock of a run and raises it. `Run.Later` says what that makes of the row: no
lock falls, and while the lock of a suspended run stays as it is, so does the whole row, unless the
run ends. Hence a lock is claimed once, a run that was seen to be due and is claimed was at rest in
between, and a run is given back by the worker that holds it (`Database.claims_exclusive`).

Progress is guarded by the state of the run and not by its lock. So a worker from which a run was
taken over can still write to it for as long as the run is running (`Database.late_progress`).
-/

namespace CrmAutomation

/-! ## Rows later on -/

/-- The row of a run later on: no lower lock, the same row if the run has ended, and the same row if
the run was suspended and the lock is the same, unless the run has ended since. -/
structure Run.Later (r r' : Run) : Prop extends Database.Succeeds r r' where
  eq_of_rested : r.state = .suspended → r'.lock = r.lock → r' = r ∨ r'.state.isTerminal

namespace Run.Later

variable {r r₁ r' : Run}

theorem refl (r : Run) : r.Later r :=
  ⟨.refl r, fun _ _ => Or.inl rfl⟩

theorem trans (h : r.Later r₁) (h' : r₁.Later r') : r.Later r' := by
  refine ⟨h.toSucceeds.trans h'.toSucceeds, fun rested hlock => ?_⟩
  have hle := h.lock_le
  have hle' := h'.lock_le
  rcases h.eq_of_rested rested (by omega) with rfl | ended
  · exact h'.eq_of_rested rested hlock
  · exact Or.inr ((h'.eq_of_ended ended).symm ▸ ended)

/-- A run is not both suspended and at its end, or running and at its end. -/
theorem not_isTerminal (h : r.state.isActive) : ¬r.state.isTerminal := by
  simp [RunState.isTerminal, h]

/-- A row that comes between a suspended row and the same lock suspended is that row. -/
theorem eq_of_suspended (h : r.Later r₁) (h' : r₁.Later r') (first : r.state = .suspended)
    (last : r'.state = .suspended) (hlock : r'.lock = r.lock) : r₁ = r := by
  have hle := h.lock_le
  have hle' := h'.lock_le
  rcases h.eq_of_rested first (by omega) with heq | ended
  · exact heq
  · rw [← h'.eq_of_ended ended] at ended
    exact absurd ended (not_isTerminal (by rw [last]; rfl))

/-- A row that comes between a running row and the same lock running is running. -/
theorem running_of_running (h : r.Later r₁) (h' : r₁.Later r') (last : r'.state = .running)
    (hlock : r'.lock = r.lock) : r₁.state = .running ∧ r₁.lock = r.lock := by
  have hle := h.lock_le
  have hle' := h'.lock_le
  refine ⟨?_, by omega⟩
  have hactive : r'.state.isActive := by rw [last]; rfl
  have hnot := not_isTerminal hactive
  have notEnded : ¬r₁.state.isTerminal := fun ended => by
    rw [h'.eq_of_ended ended] at hnot
    exact hnot ended
  cases hstate : r₁.state with
  | running => rfl
  | suspended =>
    rcases h'.eq_of_rested hstate (by omega) with heq | ended
    · rw [heq, hstate] at last
      cases last
    · exact absurd ended hnot
  | completed | failed | cancelled =>
    exact absurd (by rw [hstate]; rfl) notEnded

end Run.Later

theorem Run.Write.later {now : Instant} {r r' : Run} (h : r.Write now r') : r.Later r' := by
  refine ⟨⟨h.id_eq, h.lock_le, fun ended => absurd ended (Run.Later.not_isTerminal h.isActive)⟩,
    fun rested hlock => ?_⟩
  cases h with
  | cancel => exact Or.inr rfl
  | claim =>
    simp only at hlock
    omega
  | move running | suspend running | complete running | fail running | release running
  | takeOver running => simp [running] at rested

/-! ## Commands one after the other -/

/-- A command of a worker, and the time at which the database performs it. -/
structure WorkerCommand where
  worker : Nat
  time : Instant
  command : RunCommand

namespace RunCommand

/-- Whether a command takes effect at the time `now`. -/
def succeeds (now : Instant) (db : Database) : RunCommand → Bool
  | create id d contact node event chainDepth =>
    (db.createRun now id d contact node event chainDepth).1.isSome
  | moveTo run node => (db.moveTo now run node).1
  | suspend run node resumeAt => (db.suspend now run node resumeAt).1
  | complete run => (db.complete now run).1
  | fail run error => (db.fail now run error).1
  | cancel run => (db.cancel now run).1
  | claimSuspended c => (db.claimSuspended now c).1
  | release c resumeAt => (db.release now c resumeAt).1
  | claimStale c => (db.claimStale now c).1

/-- The claim that a command makes. -/
def claim? : RunCommand → Option Claim
  | claimSuspended c => some c
  | claimStale c => some c
  | _ => none

/-- The run of which a command writes the progress. -/
def progressOf? : RunCommand → Option String
  | moveTo run _ => some run
  | suspend run _ _ => some run
  | complete run => some run
  | fail run _ => some run
  | _ => none

end RunCommand

namespace Database

/-- The database after commands of any workers, in the order in which they are performed. It does
not know one worker from another. -/
def follow (db : Database) (l : List WorkerCommand) : Database :=
  l.foldl (fun d o => o.command.perform o.time d) db

theorem follow_append (db : Database) (l l' : List WorkerCommand) :
    db.follow (l ++ l') = (db.follow l).follow l' :=
  List.foldl_append

variable {db : Database} {id : String} {r : Run}

theorem nodup_ids_follow (distinct : (db.runs.map (·.id)).Nodup) (l : List WorkerCommand) :
    ((db.follow l).runs.map (·.id)).Nodup := by
  induction l generalizing db with
  | nil => exact distinct
  | cons o l ih => exact ih (o.command.nodup_ids_perform o.time distinct)

/-- The row of a run after a command is its row later on. -/
theorem run?_perform (now : Instant) (c : RunCommand) (h : db.run? id = some r) :
    ∃ r', (c.perform now db).run? id = some r' ∧ r.Later r' := by
  obtain ⟨f, new, hruns, hf, -⟩ := c.runs_perform now db
  have hid : ∀ r, (f r).id = r.id := fun r => (hf r).elim (congrArg Run.id) Run.Write.id_eq
  have hlater : r.Later (f r) := (hf r).elim (fun heq => heq.symm ▸ .refl r) Run.Write.later
  have hkey : ((fun r => r.id == id) ∘ f) = fun r => r.id == id :=
    funext fun r => by simp only [Function.comp, hid]
  refine ⟨f r, ?_, hlater⟩
  rw [run?] at h
  rw [run?, hruns, List.find?_append, List.find?_map, hkey, h]
  rfl

/-- The row of a run after any commands is its row later on. -/
theorem run?_follow (l : List WorkerCommand) (h : db.run? id = some r) :
    ∃ r', (db.follow l).run? id = some r' ∧ r.Later r' := by
  induction l generalizing db r with
  | nil => exact ⟨r, h, .refl r⟩
  | cons o l ih =>
    obtain ⟨r₁, hr₁, hlater⟩ := run?_perform o.time o.command h
    obtain ⟨r', hr', hlater'⟩ := ih hr₁
    exact ⟨r', hr', hlater.trans hlater'⟩

/-- The rows of a run before and after some of the commands. -/
theorem run?_between {l l' : List WorkerCommand} {q : Run} (h : db.run? id = some r)
    (h' : (db.follow (l ++ l')).run? id = some q) :
    ∃ r₁, (db.follow l).run? id = some r₁ ∧ r.Later r₁ ∧ r₁.Later q := by
  obtain ⟨r₁, hr₁, hlater⟩ := run?_follow l h
  obtain ⟨r', hr', hlater'⟩ := run?_follow l' hr₁
  rw [follow_append, hr'] at h'
  exact ⟨r₁, hr₁, hlater, Option.some.inj h' ▸ hlater'⟩

/-! ## Guards -/

theorem run?_eq_some_iff (distinct : (db.runs.map (·.id)).Nodup) :
    db.run? id = some r ↔ r ∈ db.runs ∧ r.id = id := by
  constructor
  · exact fun h => ⟨List.mem_of_find?_eq_some h, by simpa using List.find?_some h⟩
  · rintro ⟨hr, rfl⟩
    exact find?_key distinct hr

variable {guard : Run → Bool} {change : Run → Run}

/-- A guarded write takes effect exactly where the row of the run passes the guard. -/
theorem updateRun_fst_iff (distinct : (db.runs.map (·.id)).Nodup) :
    (db.updateRun id guard change).1 ↔ ∃ r, db.run? id = some r ∧ guard r := by
  simp [updateRun, run?_eq_some_iff distinct, and_assoc]

/-- A write that takes effect changes the row of the run. -/
theorem run?_updateRun (distinct : (db.runs.map (·.id)).Nodup)
    (h : (db.updateRun id guard change).1) (hchange : ∀ r, (change r).id = r.id) :
    ∃ r, db.run? id = some r ∧ guard r ∧
      (db.updateRun id guard change).2.run? id = some (change r) := by
  obtain ⟨r, hr, hguard⟩ := (updateRun_fst_iff distinct).1 h
  have distinct' : ((db.updateRun id guard change).2.runs.map (·.id)).Nodup := by
    rwa [ids_updateRun hchange]
  obtain ⟨hmem, hid⟩ := (run?_eq_some_iff distinct).1 hr
  refine ⟨r, hr, hguard, (run?_eq_some_iff distinct').2 ⟨?_, (hchange r).trans hid⟩⟩
  exact List.mem_map.2 ⟨r, hmem, by simp [hid, hguard]⟩

/-- A write that does not take effect changes nothing. -/
theorem updateRun_of_fst_eq_false (h : (db.updateRun id guard change).1 = false) :
    (db.updateRun id guard change).2 = db := by
  simp only [updateRun, List.any_eq_false] at h
  have hmap : db.runs.map (fun r => if r.id == id && guard r then change r else r) = db.runs :=
    (List.map_congr_left fun r hr => if_neg (h r hr)).trans (List.map_id' _)
  simp only [updateRun, hmap]

/-- A claim that takes effect finds the lock that it names, and leaves the run running with the next
one. -/
theorem run?_perform_of_claim (distinct : (db.runs.map (·.id)).Nodup) {command : RunCommand}
    {c : Claim} {now : Instant} (hc : command.claim? = some c) (h : command.succeeds now db) :
    ∃ r r', db.run? c.run = some r ∧ r.lock = c.lock ∧
      (command.perform now db).run? c.run = some r' ∧ r'.state = .running ∧
      r'.lock = c.lock + 1 := by
  cases command with
  | claimSuspended c' =>
    obtain rfl := Option.some.inj hc
    obtain ⟨r, hr, hguard, hrow⟩ := run?_updateRun distinct h fun _ => rfl
    simp only [Bool.and_eq_true, beq_iff_eq] at hguard
    exact ⟨r, _, hr, hguard.2, hrow, rfl, rfl⟩
  | claimStale c' =>
    obtain rfl := Option.some.inj hc
    obtain ⟨r, hr, hguard, hrow⟩ := run?_updateRun distinct h fun _ => rfl
    simp only [Bool.and_eq_true, beq_iff_eq] at hguard
    exact ⟨r, _, hr, hguard.2, hrow, RunCommand.running_of_isRunning hguard.1, rfl⟩
  | create | moveTo | suspend | complete | fail | cancel | release => cases hc

/-- A release that takes effect finds the run running with the lock of the claim that was won. -/
theorem run?_of_release (distinct : (db.runs.map (·.id)).Nodup) {c : Claim} {now resumeAt : Instant}
    (h : (RunCommand.release c resumeAt).succeeds now db) :
    ∃ r, db.run? c.run = some r ∧ r.state = .running ∧ r.lock = c.lock + 1 := by
  obtain ⟨r, hr, hguard⟩ := (updateRun_fst_iff distinct).1 h
  simp only [Bool.and_eq_true, beq_iff_eq] at hguard
  exact ⟨r, hr, RunCommand.running_of_isRunning hguard.1, hguard.2⟩

/-- Progress is written exactly while the run is running. -/
theorem succeeds_iff_of_progress (distinct : (db.runs.map (·.id)).Nodup) {command : RunCommand}
    (hp : command.progressOf? = some id) (now : Instant) :
    command.succeeds now db ↔ ∃ r, db.run? id = some r ∧ r.state = .running := by
  have running : ∀ r, isRunning r ↔ r.state = .running := fun r => by simp [isRunning]
  cases command with
  | moveTo | suspend | complete | fail =>
    obtain rfl := Option.some.inj hp
    exact (updateRun_fst_iff distinct).trans (by simp only [running])
  | create | cancel | claimSuspended | release | claimStale => cases hp

theorem perform_of_progress {command : RunCommand} (hp : command.progressOf? = some id)
    {now : Instant} (h : command.succeeds now db = false) : command.perform now db = db := by
  cases command with
  | moveTo | suspend | complete | fail => exact updateRun_of_fst_eq_false h
  | create | cancel | claimSuspended | release | claimStale => cases hp

theorem mem_of_mem_limited {α : Type} {limit : Int} {a : α} {l : List α}
    (h : a ∈ limited limit l) : a ∈ l := by
  unfold limited at h
  split at h
  · exact h
  · exact List.mem_of_mem_take h

theorem mem_inOrder {time : Run → Nat} {l : List Run} : r ∈ inOrder time l ↔ r ∈ l :=
  List.mem_mergeSort

/-- A run that is listed as due is suspended, and its time has come. -/
theorem run?_of_mem_dueRuns (distinct : (db.runs.map (·.id)).Nodup) {now : Instant} {limit : Int}
    {c : Claim} (h : c ∈ db.dueRuns now limit) :
    ∃ r resumeAt, db.run? c.run = some r ∧ r.lock = c.lock ∧ r.state = .suspended ∧
      r.resumeAt = some resumeAt ∧ resumeAt.notAfter now := by
  obtain ⟨r, hr, rfl⟩ := List.mem_map.1 h
  obtain ⟨hmem, hguard⟩ := List.mem_filter.1 (mem_inOrder.1 (mem_of_mem_limited hr))
  simp only [Bool.and_eq_true, beq_iff_eq] at hguard
  obtain ⟨hrested, htime⟩ := hguard
  have hrow : db.run? (claimOf r).run = some r := (run?_eq_some_iff distinct).2 ⟨hmem, rfl⟩
  cases hresume : r.resumeAt with
  | none => simp [hresume] at htime
  | some t => exact ⟨r, t, hrow, rfl, hrested, hresume, by simpa [hresume] using htime⟩

/-! ## Claims -/

/-- After a claim that took effect no other with the same lock does. -/
theorem succeeds_eq_false_of_claimed (distinct : (db.runs.map (·.id)).Nodup)
    {first second : RunCommand} {c : Claim} {time time' : Instant} (hfirst : first.claim? = some c)
    (hsecond : second.claim? = some c) (hwon : first.succeeds time db)
    (between : List WorkerCommand) :
    second.succeeds time' ((first.perform time db).follow between) = false := by
  obtain ⟨-, q, -, -, hq, -, hlock⟩ := run?_perform_of_claim distinct hfirst hwon
  have distinct' := nodup_ids_follow (first.nodup_ids_perform time distinct) between
  obtain ⟨r', hr', hlater⟩ := run?_follow between hq
  refine Bool.eq_false_iff.2 fun hagain => ?_
  obtain ⟨r, -, hr, hlock', -⟩ := run?_perform_of_claim distinct' hsecond hagain
  obtain rfl := Option.some.inj (hr.symm.trans hr')
  have hle := hlater.lock_le
  omega

/-- A suspended run that is claimed with the lock that it had has not changed in between. -/
theorem run?_eq_of_claimSuspended {c : Claim} {time : Instant} {earlier later : List WorkerCommand}
    (distinct : (db.runs.map (·.id)).Nodup) (hr : db.run? c.run = some r)
    (hrested : r.state = .suspended) (hlock : r.lock = c.lock)
    (hwon : (RunCommand.claimSuspended c).succeeds time (db.follow (earlier ++ later))) :
    (db.follow earlier).run? c.run = some r := by
  have distinct' := nodup_ids_follow distinct (earlier ++ later)
  obtain ⟨q, hq, hguard⟩ := (updateRun_fst_iff distinct').1 hwon
  simp only [Bool.and_eq_true, beq_iff_eq] at hguard
  obtain ⟨r₁, hr₁, hlater, hlater'⟩ := run?_between hr hq
  rw [hr₁, hlater.eq_of_suspended hlater' hrested hguard.1 (hguard.2.trans hlock.symm)]

/-- A run that was claimed and is given back with that claim has been running with its lock. -/
theorem running_of_release {first : RunCommand} {c : Claim} {time time' resumeAt : Instant}
    {earlier later : List WorkerCommand} (distinct : (db.runs.map (·.id)).Nodup)
    (hfirst : first.claim? = some c) (hwon : first.succeeds time db)
    (hreleased : (RunCommand.release c resumeAt).succeeds time'
      ((first.perform time db).follow (earlier ++ later))) :
    ∃ r, ((first.perform time db).follow earlier).run? c.run = some r ∧ r.state = .running ∧
      r.lock = c.lock + 1 := by
  obtain ⟨-, r, -, -, hr, -, hlock⟩ := run?_perform_of_claim distinct hfirst hwon
  have distinct' := nodup_ids_follow (first.nodup_ids_perform time distinct) (earlier ++ later)
  obtain ⟨q, hq, hrunning, hlock'⟩ := run?_of_release distinct' hreleased
  obtain ⟨r₁, hr₁, hlater, hlater'⟩ := run?_between hr hq
  obtain ⟨hrunning₁, hlock₁⟩ :=
    hlater.running_of_running hlater' hrunning (hlock'.trans hlock.symm)
  exact ⟨r₁, hr₁, hrunning₁, hlock₁.trans hlock⟩

/-- What workers that share the table may rely on, whatever the others do in between. -/
structure Exclusive (db : Database) : Prop where
  /-- Of the claims with one lock at most one takes effect. -/
  once : ∀ time first c, RunCommand.claim? first = some c → first.succeeds time db →
    ∀ between time' second, RunCommand.claim? second = some c →
      second.succeeds time' ((first.perform time db).follow between) = false
  /-- A run that was listed as due and is claimed has stayed as it was listed: suspended, on the
  same node, and due at the same time, which had come. -/
  due : ∀ now limit, ∀ c ∈ db.dueRuns now limit, ∀ between time,
    (RunCommand.claimSuspended c).succeeds time (db.follow between) →
      ∃ r resumeAt, r.state = .suspended ∧ r.resumeAt = some resumeAt ∧ resumeAt.notAfter now ∧
        ∀ earlier, earlier <+: between → (db.follow earlier).run? c.run = some r
  /-- A run that was claimed and is given back has been running ever since, and no other claim on it
  has taken effect. -/
  held : ∀ time first c, RunCommand.claim? first = some c → first.succeeds time db →
    ∀ between time' resumeAt,
      (RunCommand.release c resumeAt).succeeds time' ((first.perform time db).follow between) →
        (∀ earlier, earlier <+: between →
          ∃ r, ((first.perform time db).follow earlier).run? c.run = some r ∧
            r.state = .running) ∧
        ∀ earlier o later c', between = earlier ++ o :: later → o.command.claim? = some c' →
          c'.run = c.run →
            o.command.succeeds o.time ((first.perform time db).follow earlier) = false

/-- However the commands of any number of workers come one after the other, a lock is claimed at
most once, a claim of a run that was seen to be due takes effect only if nothing has happened to the
run since, and a run is given back only while it is running for the worker that claimed it last. -/
theorem claims_exclusive (db : Database) (distinct : (db.runs.map (·.id)).Nodup) :
    db.Exclusive := by
  constructor
  · intro time first c hfirst hwon between time' second hsecond
    exact succeeds_eq_false_of_claimed distinct hfirst hsecond hwon between
  · intro now limit c hc between time hwon
    obtain ⟨r, resumeAt, hr, hlock, hrested, hresume, hdue⟩ := run?_of_mem_dueRuns distinct hc
    refine ⟨r, resumeAt, hrested, hresume, hdue, ?_⟩
    rintro earlier ⟨later, rfl⟩
    exact run?_eq_of_claimSuspended distinct hr hrested hlock hwon
  · intro time first c hfirst hwon between time' resumeAt hreleased
    constructor
    · rintro earlier ⟨later, rfl⟩
      obtain ⟨r, hr, hrunning, -⟩ := running_of_release distinct hfirst hwon hreleased
      exact ⟨r, hr, hrunning⟩
    · rintro earlier o later c' rfl hc' hrun
      refine Bool.eq_false_iff.2 fun hother => ?_
      have distinct' := first.nodup_ids_perform time distinct
      obtain ⟨r₁, r₂, hr₁, hlock₁, hr₂, -, hlock₂⟩ :=
        run?_perform_of_claim (nodup_ids_follow distinct' earlier) hc' hother
      -- The other claim raised the lock, which is the same before and after it.
      obtain ⟨s₁, hs₁, -, hheld₁⟩ := running_of_release distinct hfirst hwon hreleased
      rw [List.append_cons] at hreleased
      obtain ⟨s₂, hs₂, -, hheld₂⟩ := running_of_release distinct hfirst hwon hreleased
      rw [hrun] at hr₁ hr₂
      rw [follow_append] at hs₂
      obtain rfl := Option.some.inj (hr₁.symm.trans hs₁)
      obtain rfl := Option.some.inj (hr₂.symm.trans hs₂)
      omega

/-- Two workers saw the suspended run when it was due. The first claims it, moves it on and gives it
back; it was at rest until the claim and running until then, and the second comes too late. -/
theorem claims_exclusive_of_resting :
    let first : RunCommand := .claimSuspended ⟨"run-1", 0⟩
    let moved : List WorkerCommand := [⟨1, ⟨97⟩, .moveTo "run-1" "mail"⟩]
    let released : WorkerCommand := ⟨1, ⟨98⟩, .release ⟨"run-1", 0⟩ ⟨95⟩⟩
    (resting.runs.map (·.id)).Nodup ∧ ⟨"run-1", 0⟩ ∈ resting.dueRuns ⟨95⟩ 10 ∧
    first.succeeds ⟨96⟩ resting ∧
    released.command.succeeds ⟨98⟩ ((first.perform ⟨96⟩ resting).follow moved) ∧
    (∃ r, resting.run? "run-1" = some r ∧ r.state = .suspended) ∧
    (∃ r, ((first.perform ⟨96⟩ resting).follow moved).run? "run-1" = some r ∧
      r.state = .running) ∧
    first.succeeds ⟨99⟩ ((first.perform ⟨96⟩ resting).follow (moved ++ [released])) = false := by
  intro first moved released
  have distinct : (resting.runs.map (·.id)).Nodup := by decide
  have listed : ⟨"run-1", 0⟩ ∈ resting.dueRuns ⟨95⟩ 10 := by decide +kernel
  have won : first.succeeds ⟨96⟩ resting := by decide
  have back : released.command.succeeds ⟨98⟩ ((first.perform ⟨96⟩ resting).follow moved) := by
    decide
  obtain ⟨once, due, held⟩ := claims_exclusive resting distinct
  obtain ⟨r, -, hrested, -, -, hr⟩ := due _ _ _ listed [] ⟨96⟩ won
  obtain ⟨hrunning, -⟩ := held _ _ _ rfl won moved ⟨98⟩ ⟨95⟩ back
  exact ⟨distinct, listed, won, back, ⟨r, hr [] (List.prefix_refl _), hrested⟩,
    hrunning moved (List.prefix_refl _), once _ _ _ rfl won (moved ++ [released]) _ _ rfl⟩

/-! ## Takeovers -/

/-- After a run was taken over, the other workers can still write its progress, but only while the
run is running: once it has ended they never change it again. What they claimed before they
cannot give back. -/
theorem writes_after_takeover (db : Database) (distinct : (db.runs.map (·.id)).Nodup) (c : Claim)
    (time : Instant) (won : (RunCommand.claimStale c).succeeds time db)
    (between : List WorkerCommand) (time' : Instant) :
    let taken := (RunCommand.claimStale c).perform time db
    (∀ late : RunCommand, late.progressOf? = some c.run →
      (late.succeeds time' (taken.follow between) ↔
        ∃ r, (taken.follow between).run? c.run = some r ∧ r.state = .running) ∧
      (late.succeeds time' (taken.follow between) = false →
        late.perform time' (taken.follow between) = taken.follow between) ∧
      ∀ earlier r, earlier <+: between → (taken.follow earlier).run? c.run = some r →
        r.state.isTerminal → late.succeeds time' (taken.follow between) = false) ∧
    ∀ (before : Claim) (resumeAt : Instant), before.run = c.run → before.lock < c.lock →
      (RunCommand.release before resumeAt).succeeds time' (taken.follow between) = false := by
  intro taken
  have distinct' : ((taken.follow between).runs.map (·.id)).Nodup :=
    nodup_ids_follow (RunCommand.nodup_ids_perform time _ distinct) between
  constructor
  · intro late hlate
    have hiff := succeeds_iff_of_progress distinct' hlate time'
    refine ⟨hiff, perform_of_progress hlate, ?_⟩
    rintro earlier r ⟨later, rfl⟩ hr ended
    refine Bool.eq_false_iff.2 fun hlateWon => ?_
    obtain ⟨q, hq, hrunning⟩ := hiff.1 hlateWon
    obtain ⟨r', hr', hlater⟩ := run?_follow later hr
    rw [follow_append, hr', hlater.eq_of_ended ended] at hq
    obtain rfl := Option.some.inj hq
    simp [hrunning, RunState.isTerminal, RunState.isActive] at ended
  · intro before resumeAt hrun hlock
    refine Bool.eq_false_iff.2 fun hreleased => ?_
    obtain ⟨-, r, -, -, hr, -, hraised⟩ := run?_perform_of_claim distinct rfl won
    obtain ⟨r', hr', hlater⟩ := run?_follow between hr
    obtain ⟨q, hq, -, hheld⟩ := run?_of_release distinct' hreleased
    rw [hrun] at hq
    obtain rfl := Option.some.inj (hq.symm.trans hr')
    have hle := hlater.lock_le
    omega

/-- The run of the first worker is taken over by the second, who brings it to its end; what the
first worker writes then is refused. -/
theorem writes_after_takeover_of_begun :
    (begun.runs.map (·.id)).Nodup ∧ (RunCommand.claimStale ⟨"run-1", 0⟩).succeeds ⟨9⟩ begun ∧
    (RunCommand.moveTo "run-1" "start").succeeds ⟨11⟩
      (((RunCommand.claimStale ⟨"run-1", 0⟩).perform ⟨9⟩ begun).follow
        [⟨2, ⟨10⟩, .complete "run-1"⟩]) = false := by
  have distinct : (begun.runs.map (·.id)).Nodup := by decide
  have won : (RunCommand.claimStale ⟨"run-1", 0⟩).succeeds ⟨9⟩ begun := by decide
  obtain ⟨hprogress, -⟩ := writes_after_takeover begun distinct ⟨"run-1", 0⟩ ⟨9⟩ won
    [⟨2, ⟨10⟩, .complete "run-1"⟩] ⟨11⟩
  obtain ⟨-, -, hended⟩ := hprogress (.moveTo "run-1" "start") rfl
  exact ⟨distinct, won, hended [⟨2, ⟨10⟩, .complete "run-1"⟩] _ (List.prefix_refl _) rfl rfl⟩

/-- The first worker starts a run, the second takes it over and moves it on, and then the first
moves it back. -/
theorem progress_overwritten_after_takeover :
    let history : List WorkerCommand := [
      ⟨1, ⟨5⟩, .create "run-1" welcome "c-1" "start" .null 0⟩,
      ⟨2, ⟨9⟩, .claimStale ⟨"run-1", 0⟩⟩,
      ⟨2, ⟨10⟩, .moveTo "run-1" "wait"⟩]
    let late : WorkerCommand := ⟨1, ⟨11⟩, .moveTo "run-1" "start"⟩
    (RunCommand.claimStale ⟨"run-1", 0⟩).succeeds ⟨9⟩ (empty.follow (history.take 1)) ∧
    late.command.succeeds late.time (empty.follow history) ∧
    ((empty.follow history).run? "run-1").map (·.node) = some "wait" ∧
    ((empty.follow (history ++ [late])).run? "run-1").map (·.node) = some "start" := by
  decide

end Database

end CrmAutomation
