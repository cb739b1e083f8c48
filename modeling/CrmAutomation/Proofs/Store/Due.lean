import CrmAutomation.Proofs.Store.Claims

/-!
# Runs that are due

A sweep takes the runs that have been due for longest, at most as many as fit in a batch. Where no
two suspended runs are due at the same time (`Database.Staggered`), it is settled which these are
(`Database.LongestDue`), and what is listed are their claims (`Database.exists_longestDue`).
-/

namespace CrmAutomation

variable {time : Instant}

/-- A suspended run whose time has come. -/
def Run.isDue (time : Instant) (r : Run) : Bool :=
  r.state == .suspended && r.resumeAt.any (·.notAfter time)

/-- One run is due before another one. -/
def Run.DueBefore (r q : Run) : Prop :=
  ∃ t t', r.resumeAt = some t ∧ q.resumeAt = some t' ∧ t.micros < t'.micros

/-- No two suspended runs are due at the same time. -/
def Database.Staggered (db : Database) : Prop :=
  ∀ r ∈ db.runs, ∀ q ∈ db.runs, r.state = .suspended → q.state = .suspended →
    r.resumeAt = q.resumeAt → r = q

/-- The `b` runs that have been due for longest, in the order in which they became due; all that are
due if there are fewer. -/
structure Database.LongestDue (time : Instant) (b : Nat) (db : Database) (chosen : List Run) :
    Prop where
  due : ∀ r ∈ chosen, r ∈ db.runs ∧ r.isDue time
  count : chosen.length = min b (db.runs.filter (·.isDue time)).length
  sorted : chosen.Pairwise Run.DueBefore
  first : ∀ r ∈ chosen, ∀ q ∈ db.runs, q.isDue time → q ∉ chosen → r.DueBefore q

theorem Run.isDue_iff {r : Run} : r.isDue time ↔
    r.state = .suspended ∧ ∃ t, r.resumeAt = some t ∧ t.micros ≤ time.micros := by
  simp [isDue, Option.any_eq_true, Instant.notAfter]

namespace Database

/-- The time by which runs that are due are sorted. -/
def dueTime (r : Run) : Nat := (r.resumeAt.map (·.micros)).getD 0

/-- Of two runs that are due one is due first. -/
theorem dueBefore_of_le {db : Database} (staggered : db.Staggered) {r q : Run} (hr : r ∈ db.runs)
    (hq : q ∈ db.runs) (due : r.isDue time) (due' : q.isDue time) (ne : r ≠ q)
    (le : dueTime r ≤ dueTime q) : r.DueBefore q := by
  obtain ⟨rested, t, ht, -⟩ := Run.isDue_iff.1 due
  obtain ⟨rested', t', ht', -⟩ := Run.isDue_iff.1 due'
  refine ⟨t, t', ht, ht',
    Nat.lt_of_le_of_ne (by simpa [dueTime, ht, ht'] using le) fun heq => ne ?_⟩
  refine staggered r hr q hq rested rested' ?_
  rw [ht, ht', show t = t' from congrArg Instant.mk heq]

/-- A sweep lists the runs that have been due for longest. -/
theorem exists_longestDue {db : Database} (ids : (db.runs.map (·.id)).Nodup)
    (staggered : db.Staggered) (time : Instant) (b : Nat) :
    ∃ chosen, db.LongestDue time b chosen ∧ db.dueRuns time b = chosen.map claimOf := by
  let due := db.runs.filter (·.isDue time)
  let sorted := inOrder dueTime due
  have listed : db.dueRuns time b = (sorted.take b).map claimOf := by
    rw [dueRuns, limited, if_neg (by omega), Int.toNat_natCast]
    refine congrArg (fun l => ((inOrder dueTime l).take b).map claimOf) ?_
    exact List.filter_congr fun r _ => by rw [Run.isDue]; cases r.resumeAt <;> rfl
  have perm : sorted.Perm due := List.mergeSort_perm due _
  have mem {r : Run} : r ∈ sorted ↔ r ∈ db.runs ∧ r.isDue time :=
    mem_inOrder.trans List.mem_filter
  have ordered : sorted.Pairwise Run.DueBefore := by
    have le : sorted.Pairwise fun r q => decide (dueTime r ≤ dueTime q) = true :=
      List.pairwise_mergeSort (fun a b c h h' => by simp at *; omega)
        (fun a b => by simp; omega) due
    have distinct : sorted.Nodup := perm.nodup_iff.2 ((List.Nodup.of_map _ ids).filter _)
    refine (le.and distinct).imp_of_mem fun hr hq h => ?_
    obtain ⟨hrows, hdue⟩ := mem.1 hr
    obtain ⟨hrows', hdue'⟩ := mem.1 hq
    exact dueBefore_of_le staggered hrows hrows' hdue hdue' h.2 (by simpa using h.1)
  refine ⟨sorted.take b, ⟨fun r hr => mem.1 (List.mem_of_mem_take hr), ?_,
    ordered.sublist (List.take_sublist b sorted), fun r hr q hq hdue left => ?_⟩, listed⟩
  · rw [List.length_take, perm.length_eq]
  · have split : q ∈ sorted.take b ++ sorted.drop b := by
      rw [List.take_append_drop]
      exact mem.2 ⟨hq, hdue⟩
    have later := (List.mem_append.1 split).resolve_left left
    rw [← List.take_append_drop b sorted] at ordered
    exact (List.pairwise_append.1 ordered).2.2 r hr q later

/-- A run is chosen once. -/
theorem LongestDue.nodup {db : Database} {b : Nat} {chosen : List Run}
    (h : db.LongestDue time b chosen) (ids : (db.runs.map (·.id)).Nodup) :
    (chosen.map (·.id)).Nodup := by
  have distinct : chosen.Nodup := h.sorted.imp fun {r q} ⟨t, t', ht, ht', lt⟩ heq => by
    rw [heq, ht'] at ht
    obtain rfl := Option.some.inj ht
    exact Nat.lt_irrefl _ lt
  refine distinct.map_on fun r hr q hq heq => ?_
  exact List.inj_on_of_nodup_map ids (h.due r hr).1 (h.due q hq).1 heq

/-- What is listed as stale are running runs, each of them once. -/
theorem exists_stale {db : Database} (ids : (db.runs.map (·.id)).Nodup) (cutoff : Instant)
    (limit : Int) : ∃ stale : List Run, db.staleRuns cutoff limit = stale.map claimOf ∧
      (stale.map (·.id)).Nodup ∧ ∀ r ∈ stale, r ∈ db.runs ∧ r.state = .running := by
  refine ⟨_, rfl, ?_, fun r hr => ?_⟩
  · have distinct : ((inOrder (fun r => r.updatedAt.micros) (db.runs.filter fun r =>
        isRunning r && r.updatedAt.before cutoff)).map (·.id)).Nodup :=
      ((List.mergeSort_perm _ _).map _).nodup_iff.2 (ids.sublist (List.filter_sublist.map _))
    unfold limited
    split
    · exact distinct
    · exact distinct.sublist ((List.take_sublist _ _).map _)
  · obtain ⟨hmem, hguard⟩ := List.mem_filter.1 (mem_inOrder.1 (mem_of_mem_limited hr))
    exact ⟨hmem, RunCommand.running_of_isRunning (Bool.and_eq_true _ _ ▸ hguard).1⟩

end Database

end CrmAutomation
