import CrmAutomation.Proofs.Store.Claims

/-!
# Recovery of stale runs

A worker lists the running runs that were not written to since a cutoff, with the lock of each, and
claims them later. In between the other workers go on writing, and the claim has to notice.

It compares the state and the lock. So it notices every command that ends the run, puts it to rest
or claims it, and it does not notice a move, which changes neither (`Database.claimStale_iff_moves`).
A run that is still walking can be taken over in this way (`Database.taken_over_after_move`).
-/

namespace CrmAutomation

/-! ## What takes effect on a run -/

namespace RunCommand

/-- The run that a command is about. -/
def run : RunCommand → String
  | create id _ _ _ _ _ => id
  | moveTo run _ => run
  | suspend run _ _ => run
  | complete run => run
  | fail run _ => run
  | cancel run => run
  | claimSuspended c => c.run
  | release c _ => c.run
  | claimStale c => c.run

/-- Whether a command only puts a run onto another node. -/
def isMove : RunCommand → Bool
  | moveTo _ _ => true
  | _ => false

end RunCommand

/-- The same run on some node, written at some time. -/
def Run.MovedTo (r r' : Run) : Prop :=
  ∃ node time, r' = { r with node := node, updatedAt := time }

theorem Run.MovedTo.refl (r : Run) : r.MovedTo r :=
  ⟨r.node, r.updatedAt, rfl⟩

theorem Run.MovedTo.trans {r r₁ r' : Run} (h : r.MovedTo r₁) (h' : r₁.MovedTo r') :
    r.MovedTo r' := by
  obtain ⟨_, _, rfl⟩ := h
  obtain ⟨node, time, rfl⟩ := h'
  exact ⟨node, time, rfl⟩

namespace Database

/-- The commands of a list that take effect on a run, in the order in which they are performed. -/
def writesTo (id : String) : Database → List WorkerCommand → List RunCommand
  | _, [] => []
  | db, o :: l =>
    let later := writesTo id (o.command.perform o.time db) l
    if o.command.run == id && o.command.succeeds o.time db then o.command :: later else later

variable {db : Database} {id : String} {r r' : Run}

theorem writesTo_cons_of_effect {o : WorkerCommand} (l : List WorkerCommand)
    (h : o.command.run = id ∧ o.command.succeeds o.time db) :
    db.writesTo id (o :: l) = o.command :: (o.command.perform o.time db).writesTo id l := by
  simp [writesTo, h]

theorem writesTo_cons_of_idle {o : WorkerCommand} (l : List WorkerCommand)
    (h : ¬(o.command.run = id ∧ o.command.succeeds o.time db)) :
    db.writesTo id (o :: l) = (o.command.perform o.time db).writesTo id l := by
  simp only [writesTo]
  exact if_neg (by simpa using h)

/-- A guarded write does not change the rows of other runs. -/
theorem run?_updateRun_of_ne {other : String} {guard : Run → Bool} {change : Run → Run}
    (hne : other ≠ id) (hchange : ∀ r, (change r).id = r.id) :
    (db.updateRun other guard change).2.run? id = db.run? id := by
  have hkey : ((fun r : Run => r.id == id) ∘
      fun r => if r.id == other && guard r then change r else r) = fun r => r.id == id := by
    funext r
    simp only [Function.comp]
    split
    · rw [hchange]
    · rfl
  rw [run?, updateRun, List.find?_map, hkey]
  cases hrow : db.runs.find? fun r => r.id == id with
  | none => rw [run?, hrow, Option.map_none]
  | some r =>
    have hid : r.id = id := by simpa using List.find?_some hrow
    have hmiss : r.id ≠ other := hid ▸ hne.symm
    simp [run?, hrow, hmiss]

/-- A write of a run that is found and passes the guard is done. -/
theorem run?_updateRun_of_run? {guard : Run → Bool} {change : Run → Run}
    (hchange : ∀ r, (change r).id = r.id)
    (row : db.run? id = some r) (passes : guard r = true) :
    (db.updateRun id guard change).1 = true ∧
      (db.updateRun id guard change).2.run? id = some (change r) := by
  have hid : r.id = id := by simpa using List.find?_some row
  have key : (fun o : Run => (if (o.id == id && guard o) = true then change o else o).id == id)
      = fun o : Run => o.id == id := by
    funext o
    split
    · rw [hchange]
    · rfl
  refine ⟨List.any_eq_true.2 ⟨r, List.mem_of_find?_eq_some row, by simp [hid, passes]⟩, ?_⟩
  change (db.runs.map _).find? _ = _
  rw [List.find?_map]
  change ((db.runs.find? fun o : Run => _ == id).map _) = _
  rw [key, show db.runs.find? (fun o => o.id == id) = some r from row]
  simp [hid, passes]

/-- A command that is about another run, or takes no effect, leaves the row of a run alone. -/
theorem run?_perform_of_idle {c : RunCommand} {now : Instant} (h : db.run? id = some r)
    (idle : ¬(c.run = id ∧ c.succeeds now db)) : (c.perform now db).run? id = some r := by
  cases c with
  | create other d contact node event chainDepth =>
    simp only [RunCommand.perform, createRun]
    split
    · exact h
    · simp only [run?, List.find?_append]
      rw [show db.runs.find? (fun r => r.id == id) = some r from h]
      rfl
  | moveTo | suspend | complete | fail | cancel | claimSuspended | release | claimStale =>
    simp only [RunCommand.run, RunCommand.succeeds, not_and_or, Bool.not_eq_true] at idle
    rcases idle with hne | hfalse
    · refine (run?_updateRun_of_ne hne ?_).trans h
      exact fun _ => rfl
    · exact (congrArg (run? · id) (updateRun_of_fst_eq_false hfalse)).trans h

/-- A move that takes effect changes the node of a running run. -/
theorem run?_perform_of_isMove {c : RunCommand} {now : Instant}
    (distinct : (db.runs.map (·.id)).Nodup) (h : db.run? id = some r) (target : c.run = id)
    (effect : c.succeeds now db) (move : c.isMove) :
    ∃ r', (c.perform now db).run? id = some r' ∧ r.MovedTo r' := by
  cases c with
  | moveTo run node =>
    obtain rfl : run = id := target
    obtain ⟨o, ho, -, hrow⟩ := run?_updateRun distinct effect fun _ => rfl
    obtain rfl := Option.some.inj (ho.symm.trans h)
    exact ⟨_, hrow, node, now, rfl⟩
  | create | suspend | complete | fail | cancel | claimSuspended | release | claimStale => cases move

/-- A command after which a running run is still running with its lock was a move. -/
theorem isMove_of_running {c : RunCommand} {now : Instant} (distinct : (db.runs.map (·.id)).Nodup)
    (h : db.run? id = some r) (hrunning : r.state = .running) (target : c.run = id)
    (effect : c.succeeds now db) (h' : (c.perform now db).run? id = some r')
    (hrunning' : r'.state = .running) (hlock : r'.lock = r.lock) : c.isMove := by
  cases c with
  | moveTo => rfl
  | create other d contact node event chainDepth =>
    obtain rfl : other = id := target
    -- The id is taken by the row that is there.
    have taken : db.runs.any (fun o => o.id == other ||
        o.activeKey == some (activeKeyOf d.id contact)) := by
      obtain ⟨hmem, hid⟩ := (run?_eq_some_iff distinct).1 h
      exact List.any_eq_true.2 ⟨r, hmem, by simp [hid]⟩
    simp [RunCommand.succeeds, createRun, taken] at effect
  | suspend | complete | fail | cancel =>
    obtain rfl := target
    obtain ⟨_, _, _, hrow⟩ := run?_updateRun distinct effect fun _ => rfl
    obtain rfl := Option.some.inj (h'.symm.trans hrow)
    cases hrunning'
  | claimSuspended c | release c _ | claimStale c =>
    obtain rfl := target
    obtain ⟨o, ho, hguard, hrow⟩ := run?_updateRun distinct effect fun _ => rfl
    obtain rfl := Option.some.inj (ho.symm.trans h)
    obtain rfl := Option.some.inj (h'.symm.trans hrow)
    simp only [Bool.and_eq_true, beq_iff_eq] at hguard hlock
    omega

/-! ## Claims of stale runs -/

/-- A run that is listed as stale is running, and was last written to before the cutoff. -/
theorem run?_of_mem_staleRuns (distinct : (db.runs.map (·.id)).Nodup) {cutoff : Instant}
    {limit : Int} {c : Claim} (h : c ∈ db.staleRuns cutoff limit) :
    ∃ r, db.run? c.run = some r ∧ r.lock = c.lock ∧ r.state = .running ∧
      r.updatedAt.before cutoff := by
  obtain ⟨r, hr, rfl⟩ := List.mem_map.1 h
  obtain ⟨hmem, hguard⟩ := List.mem_filter.1 (mem_inOrder.1 (mem_of_mem_limited hr))
  rw [Bool.and_eq_true] at hguard
  exact ⟨r, (run?_eq_some_iff distinct).2 ⟨hmem, rfl⟩, rfl,
    RunCommand.running_of_isRunning hguard.1, hguard.2⟩

/-- Commands of which none takes effect on a run leave its row alone. -/
theorem run?_follow_of_writesTo_eq_nil {l : List WorkerCommand} (h : db.run? id = some r)
    (none : db.writesTo id l = []) : (db.follow l).run? id = some r := by
  induction l generalizing db with
  | nil => exact h
  | cons o l ih =>
    by_cases hit : o.command.run = id ∧ o.command.succeeds o.time db
    · rw [writesTo_cons_of_effect l hit] at none
      cases none
    · rw [writesTo_cons_of_idle l hit] at none
      exact ih (run?_perform_of_idle h hit) none

/-- A running run is running with the same lock after some commands exactly if those that took
effect on it were moves. -/
theorem running_follow_iff {l : List WorkerCommand} (distinct : (db.runs.map (·.id)).Nodup)
    (h : db.run? id = some r) (hrunning : r.state = .running) :
    (∃ r', (db.follow l).run? id = some r' ∧ r'.state = .running ∧ r'.lock = r.lock) ↔
      ∀ c ∈ db.writesTo id l, c.isMove := by
  induction l generalizing db r with
  | nil => exact iff_of_true ⟨r, h, hrunning, rfl⟩ (by simp [writesTo])
  | cons o l ih =>
    have distinct' := o.command.nodup_ids_perform o.time distinct
    by_cases hit : o.command.run = id ∧ o.command.succeeds o.time db
    · rw [writesTo_cons_of_effect l hit, List.forall_mem_cons]
      obtain ⟨target, effect⟩ := hit
      constructor
      · rintro ⟨q, hq, hlast, hlock⟩
        obtain ⟨r₁, hr₁, hlater⟩ := run?_perform o.time o.command h
        obtain ⟨q', hq', hlater'⟩ := run?_follow l hr₁
        obtain rfl := Option.some.inj (hq.symm.trans hq')
        obtain ⟨hrunning₁, hlock₁⟩ := hlater.running_of_running hlater' hlast hlock
        exact ⟨isMove_of_running distinct h hrunning target effect hr₁ hrunning₁ hlock₁,
          (ih distinct' hr₁ hrunning₁).1 ⟨q, hq, hlast, hlock.trans hlock₁.symm⟩⟩
      · rintro ⟨move, later⟩
        obtain ⟨-, hr₁, node, time, rfl⟩ := run?_perform_of_isMove distinct h target effect move
        exact (ih distinct' hr₁ hrunning).2 later
    · rw [writesTo_cons_of_idle l hit]
      exact ih distinct' (run?_perform_of_idle h hit) hrunning

/-- Moves are all that can have happened to a run that is running with the lock it had. -/
theorem movedTo_follow {l : List WorkerCommand} (distinct : (db.runs.map (·.id)).Nodup)
    (h : db.run? id = some r) (moves : ∀ c ∈ db.writesTo id l, c.isMove) :
    ∃ r', (db.follow l).run? id = some r' ∧ r.MovedTo r' := by
  induction l generalizing db r with
  | nil => exact ⟨r, h, .refl r⟩
  | cons o l ih =>
    have distinct' := o.command.nodup_ids_perform o.time distinct
    by_cases hit : o.command.run = id ∧ o.command.succeeds o.time db
    · rw [writesTo_cons_of_effect l hit, List.forall_mem_cons] at moves
      obtain ⟨r₁, hr₁, hmoved⟩ := run?_perform_of_isMove distinct h hit.1 hit.2 moves.1
      obtain ⟨r', hr', hmoved'⟩ := ih distinct' hr₁ moves.2
      exact ⟨r', hr', hmoved.trans hmoved'⟩
    · rw [writesTo_cons_of_idle l hit] at moves
      exact ih distinct' (run?_perform_of_idle h hit) moves

/-- A run that was listed as stale is taken over exactly if nothing but moves took effect on it
since, however the commands of the workers come one after the other. Its row is then the one that
was listed, but for the node and the time of its last write; and if there was no move either, it is
the one that was listed, last written to before the cutoff. -/
theorem claimStale_iff_moves (db : Database) (distinct : (db.runs.map (·.id)).Nodup)
    (cutoff : Instant) (limit : Int) (c : Claim) (listed : c ∈ db.staleRuns cutoff limit)
    (between : List WorkerCommand) (time : Instant) :
    ((RunCommand.claimStale c).succeeds time (db.follow between) ↔
      ∀ w ∈ db.writesTo c.run between, w.isMove) ∧
    ∃ r, db.run? c.run = some r ∧ r.state = .running ∧ r.lock = c.lock ∧
      r.updatedAt.before cutoff ∧
      ((RunCommand.claimStale c).succeeds time (db.follow between) →
        ∃ r', (db.follow between).run? c.run = some r' ∧ r.MovedTo r') ∧
      (db.writesTo c.run between = [] → (db.follow between).run? c.run = some r) := by
  obtain ⟨r, hr, hlock, hrunning, hbefore⟩ := run?_of_mem_staleRuns distinct listed
  have won : (RunCommand.claimStale c).succeeds time (db.follow between) ↔
      ∀ w ∈ db.writesTo c.run between, w.isMove := by
    refine (updateRun_fst_iff (nodup_ids_follow distinct between)).trans ?_
    rw [← running_follow_iff distinct hr hrunning, hlock]
    simp [isRunning]
  exact ⟨won, r, hr, hrunning, hlock, hbefore, fun h => movedTo_follow distinct hr (won.1 h),
    run?_follow_of_writesTo_eq_nil hr⟩

/-- Two workers list the run as stale; one takes it over and the other comes too late. -/
theorem claimStale_iff_moves_of_begun :
    let taken : WorkerCommand := ⟨1, ⟨9⟩, .claimStale ⟨"run-1", 0⟩⟩
    (begun.runs.map (·.id)).Nodup ∧ ⟨"run-1", 0⟩ ∈ begun.staleRuns ⟨8⟩ 10 ∧
    (RunCommand.claimStale ⟨"run-1", 0⟩).succeeds ⟨9⟩ (begun.follow []) ∧
    ¬(RunCommand.claimStale ⟨"run-1", 0⟩).succeeds ⟨10⟩ (begun.follow [taken]) := by
  intro taken
  have distinct : (begun.runs.map (·.id)).Nodup := by decide
  have listed : ⟨"run-1", 0⟩ ∈ begun.staleRuns ⟨8⟩ 10 := by decide +kernel
  have first := (claimStale_iff_moves begun distinct _ _ _ listed [] ⟨9⟩).1
  have second := (claimStale_iff_moves begun distinct _ _ _ listed [taken] ⟨10⟩).1
  have claimed : writesTo "run-1" begun [taken] = [taken.command] := rfl
  refine ⟨distinct, listed, first.2 (by simp [writesTo]), fun won => ?_⟩
  exact absurd (second.1 won taken.command (by simp [claimed])) (by decide)

/-- A worker lists the run as stale. The worker that walks it moves it on, and then it is taken
over all the same, although it has been written to since the cutoff. -/
theorem taken_over_after_move :
    let move : WorkerCommand := ⟨1, ⟨9⟩, .moveTo "run-1" "wait"⟩
    ⟨"run-1", 0⟩ ∈ begun.staleRuns ⟨8⟩ 10 ∧ move.command.succeeds move.time begun ∧
    ((begun.follow [move]).run? "run-1").map (·.updatedAt) = some ⟨9⟩ ∧
    (RunCommand.claimStale ⟨"run-1", 0⟩).succeeds ⟨10⟩ (begun.follow [move]) := by
  decide +kernel

end Database

end CrmAutomation
