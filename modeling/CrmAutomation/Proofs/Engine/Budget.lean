import CrmAutomation.Proofs.Engine.Delivery

/-!
# Attempts in the trail

Where what is recorded is always the next attempt, the attempts at each node of a run are numbered
from one on (`Database.Numbered`). Where an action is recorded beyond the limit only after a success
(`Database.Thrifty`), no more of its attempts have failed than are allowed as long as none has
succeeded (`Database.Thrifty.failed_le`). And if at some time its attempts were used up
(`Database.UsedUp`), they are so from then on: neither is an attempt left nor is there a success
(`Database.not_usedUp_of_prefix`).
-/

namespace CrmAutomation

/-- The record is about an action. -/
def NodeRecord.IsOfAction (o : NodeRecord) : Prop :=
  ∃ t : NodeType, t.isAction ∧ o.nodeType = t.text

namespace Database

variable {db d : Database} {run node : String} {limit : Int} {o : NodeRecord}

/-- The numbers from one to `k`. -/
def attemptsTo (k : Nat) : List Int := (List.range k).map fun i => ((i + 1 : Nat) : Int)

/-- The attempts at each node of each run are numbered from one on, in the order in which they were
recorded. -/
def Numbered (db : Database) : Prop :=
  ∀ run node, (db.recordsOf run node).map (·.attempt) = attemptsTo (db.recordsOf run node).length

/-- An attempt at an action is beyond the limit only if one of those before it has succeeded. -/
def Thrifty (limit : Int) (db : Database) : Prop :=
  ∀ before o, before ++ [o] <+: db.records → o.IsOfAction →
    o.attempt ≤ limit ∨ ∃ s ∈ before, s.run = o.run ∧ s.node = o.node ∧ s.outcome = .success

/-- The attempts that failed. -/
def failedAt (db : Database) (run node : String) : List NodeRecord :=
  (db.recordsOf run node).filter fun o => o.outcome == .failed

/-- As many attempts have failed as are allowed, and none has succeeded. -/
structure UsedUp (limit : Int) (run node : String) (db : Database) : Prop where
  unsuccessful : db.hasSuccess run node = false
  failed : limit ≤ (db.failedAt run node).length

theorem recordsOf_congr (h : d.records = db.records) : d.recordsOf = db.recordsOf := by
  funext run node
  simp only [recordsOf, h]

theorem hasSuccess_congr (h : d.records = db.records) : d.hasSuccess = db.hasSuccess := by
  funext run node
  simp only [hasSuccess, recordsOf_congr h]

theorem nextAttempt_congr (h : d.records = db.records) : d.nextAttempt = db.nextAttempt := by
  funext run node
  simp only [nextAttempt, recordsOf_congr h]

/-! ## Numbers -/

theorem recordsOf_extended (earlier : d.records <+: db.records) (run node : String) :
    d.recordsOf run node <+: db.recordsOf run node :=
  earlier.filter _

theorem attemptsTo_succ (k : Nat) :
    attemptsTo (k + 1) = attemptsTo k ++ [((k + 1 : Nat) : Int)] := by
  simp [attemptsTo, List.range_succ]

theorem foldl_max_attemptsTo (k : Nat) : (attemptsTo k).foldl max 0 = k := by
  induction k with
  | zero => rfl
  | succ k ih =>
    rw [attemptsTo_succ, List.foldl_append, ih, List.foldl_cons, List.foldl_nil]
    omega

theorem take_attemptsTo {m n : Nat} (h : m ≤ n) : (attemptsTo n).take m = attemptsTo m := by
  rw [attemptsTo, attemptsTo, ← List.map_take, List.take_range, Nat.min_eq_left h]

namespace Numbered

/-- The next attempt has the next number. -/
theorem nextAttempt_eq (h : db.Numbered) (run node : String) :
    db.nextAttempt run node = (db.recordsOf run node).length + 1 := by
  have numbers := h run node
  have last := foldl_max_attemptsTo (db.recordsOf run node).length
  rw [← numbers] at last
  rw [nextAttempt]
  cases hattempts : (db.recordsOf run node).map (·.attempt) with
  | nil => simp [List.map_eq_nil_iff.1 hattempts]
  | cons a rest =>
    have pos : 0 ≤ a := by
      have listed : a ∈ attemptsTo (db.recordsOf run node).length :=
        numbers ▸ hattempts ▸ List.mem_cons_self
      obtain ⟨i, -, rfl⟩ := List.mem_map.1 listed
      exact Int.natCast_nonneg _
    rw [hattempts, List.foldl_cons, Int.max_eq_right pos] at last
    exact congrArg (· + 1) last

theorem of_records_eq_nil (h : db.records = []) : db.Numbered := by
  intro run node
  rw [recordsOf, h]
  rfl

/-- What is recorded as the next attempt is numbered like the others. -/
theorem append (h : db.Numbered) {r : NodeRecord} (next : r.attempt = db.nextAttempt r.run r.node) :
    { db with records := db.records ++ [r] }.Numbered := by
  intro run node
  by_cases hkey : r.run = run ∧ r.node = node
  · obtain ⟨rfl, rfl⟩ := hkey
    have added : { db with records := db.records ++ [r] }.recordsOf r.run r.node =
        db.recordsOf r.run r.node ++ [r] := by
      simp [recordsOf]
    rw [added, List.map_append, h, List.length_append, List.length_singleton, attemptsTo_succ,
      List.map_singleton, next, h.nextAttempt_eq]
    rfl
  · have same : { db with records := db.records ++ [r] }.recordsOf run node =
        db.recordsOf run node := by
      simpa [recordsOf] using hkey
    rw [same, h]

/-- So were the attempts that were recorded first. -/
theorem of_prefix (h : db.Numbered) (earlier : d.records <+: db.records) : d.Numbered := by
  intro run node
  have hprefix := recordsOf_extended earlier run node
  have hmap := hprefix.map (·.attempt)
  rw [h run node, List.prefix_iff_eq_take, List.length_map] at hmap
  rw [hmap, take_attemptsTo hprefix.length_le]

/-- The number of a record tells how many there were before. -/
theorem attempt_eq (h : db.Numbered) {before : List NodeRecord}
    (hrecord : before ++ [o] <+: db.records) :
    o.attempt = ({ db with records := before }.recordsOf o.run o.node).length + 1 := by
  have numbered : { db with records := before ++ [o] }.Numbered := h.of_prefix hrecord
  have numbers := numbered o.run o.node
  have added : { db with records := before ++ [o] }.recordsOf o.run o.node =
      { db with records := before }.recordsOf o.run o.node ++ [o] := by
    simp [recordsOf]
  rw [added, List.map_append, List.length_append, List.length_singleton, attemptsTo_succ] at numbers
  exact List.singleton_inj.1 (List.append_inj' numbers rfl).2

end Numbered

/-! ## Limits -/

namespace Thrifty

theorem of_records_eq_nil (h : db.records = []) : db.Thrifty limit := by
  intro before o hrecord
  rw [h] at hrecord
  simp at hrecord

theorem append (h : db.Thrifty limit) {r : NodeRecord}
    (new : r.IsOfAction → r.attempt ≤ limit ∨ db.hasSuccess r.run r.node) :
    { db with records := db.records ++ [r] }.Thrifty limit := by
  intro before o hrecord haction
  rcases List.prefix_concat_iff.1 hrecord with heq | earlier
  · obtain ⟨rfl, hr⟩ := List.append_inj' heq rfl
    obtain rfl := List.singleton_inj.1 hr
    exact (new haction).imp_right hasSuccess_iff.1
  · exact h before o earlier haction

theorem of_prefix (h : db.Thrifty limit) (earlier : d.records <+: db.records) : d.Thrifty limit :=
  fun before o hrecord => h before o (hrecord.trans earlier)

/-- An attempt at an action is within the limit if none before it has succeeded. -/
theorem attempt_le (h : db.Thrifty limit) {before : List NodeRecord}
    (hrecord : before ++ [o] <+: db.records) (action : o.IsOfAction)
    (unsuccessful : { db with records := before }.hasSuccess o.run o.node = false) :
    o.attempt ≤ limit := by
  refine (h before o hrecord action).resolve_right fun success => ?_
  rw [hasSuccess_iff.2 success] at unsuccessful
  cases unsuccessful

/-- As long as an action has not succeeded, all its attempts are within the limit. -/
theorem length_recordsOf_le (h : db.Thrifty limit) (numbered : db.Numbered) (nonneg : 0 ≤ limit)
    (actions : ∀ o ∈ db.recordsOf run node, o.IsOfAction)
    (unsuccessful : db.hasSuccess run node = false) :
    ((db.recordsOf run node).length : Int) ≤ limit := by
  rcases hlast : (db.recordsOf run node).getLast? with _ | o
  · simpa [List.getLast?_eq_none_iff.1 hlast] using nonneg
  -- The last attempt has the highest number.
  have hmem : o ∈ db.recordsOf run node := List.mem_of_getLast? hlast
  have number : o.attempt = (db.recordsOf run node).length := by
    obtain ⟨l, hl⟩ := List.getLast?_eq_some_iff.1 hlast
    have numbers := numbered run node
    rw [hl, List.map_append, List.length_append, List.length_singleton, attemptsTo_succ] at numbers
    rw [hl, List.length_append, List.length_singleton]
    exact List.singleton_inj.1 (List.append_inj' numbers rfl).2
  obtain ⟨hrecord, hkey⟩ := List.mem_filter.1 hmem
  obtain ⟨rfl, rfl⟩ : o.run = run ∧ o.node = node := by simpa using hkey
  obtain ⟨before, after, hsplit⟩ := List.append_of_mem hrecord
  have hbefore : before ++ [o] <+: db.records := ⟨after, by simp [hsplit]⟩
  rw [← number]
  refine h.attempt_le hbefore (actions o hmem) (Bool.eq_false_iff.2 fun success => ?_)
  have later : db.hasSuccess o.run o.node :=
    hasSuccess_of_prefix ((List.prefix_append before [o]).trans hbefore) success
  rw [unsuccessful] at later
  cases later

/-- As long as an action has not succeeded, no more attempts have failed than are allowed. -/
theorem length_failedAt_le (h : db.Thrifty limit) (numbered : db.Numbered) (nonneg : 0 ≤ limit)
    (actions : ∀ o ∈ db.recordsOf run node, o.IsOfAction)
    (unsuccessful : db.hasSuccess run node = false) :
    ((db.failedAt run node).length : Int) ≤ limit := by
  have fewer : (db.failedAt run node).length ≤ (db.recordsOf run node).length :=
    List.length_filter_le _ _
  have := h.length_recordsOf_le numbered nonneg actions unsuccessful
  omega

end Thrifty

/-! ## Attempts that are used up -/

theorem UsedUp.le_length_recordsOf (h : d.UsedUp limit run node)
    (earlier : d.records <+: db.records) : limit ≤ (db.recordsOf run node).length := by
  have fewer : (d.failedAt run node).length ≤ (d.recordsOf run node).length :=
    List.length_filter_le _ _
  have := (recordsOf_extended earlier run node).length_le
  have := h.failed
  omega

/-- A success that has none before it. -/
theorem exists_first_success (h : db.hasSuccess run node) : ∃ before s,
    before ++ [s] <+: db.records ∧ s.run = run ∧ s.node = node ∧ s.outcome = .success ∧
      { db with records := before }.hasSuccess run node = false := by
  obtain ⟨o, ho, hkey⟩ := hasSuccess_iff.1 h
  have found : (db.records.find? fun o =>
      o.run == run && o.node == node && o.outcome == .success).isSome :=
    List.find?_isSome.2 ⟨o, ho, by simp [hkey]⟩
  obtain ⟨s, hs⟩ := Option.isSome_iff_exists.1 found
  obtain ⟨hsuccess, before, after, hsplit, hfirst⟩ := List.find?_eq_some_iff_append.1 hs
  simp only [Bool.and_eq_true, beq_iff_eq] at hsuccess
  refine ⟨before, s, ⟨after, by simp [hsplit]⟩, hsuccess.1.1, hsuccess.1.2, hsuccess.2, ?_⟩
  refine Bool.eq_false_iff.2 fun sooner => ?_
  obtain ⟨q, hq, hkey'⟩ := hasSuccess_iff.1 sooner
  simpa [hkey'] using hfirst q hq

/-- Where an attempt at an action may be made, its attempts were never used up. -/
theorem not_usedUp_of_prefix (numbered : db.Numbered) (thrifty : db.Thrifty limit)
    (actions : ∀ o ∈ db.recordsOf run node, o.IsOfAction)
    (affordable : db.nextAttempt run node ≤ limit ∨ db.hasSuccess run node)
    (earlier : d.records <+: db.records) : ¬d.UsedUp limit run node := by
  intro used
  rcases affordable with left | success
  · have := used.le_length_recordsOf earlier
    rw [numbered.nextAttempt_eq] at left
    omega
  -- The first success came after the attempts were used up, so it was beyond the limit.
  obtain ⟨before, s, hs, rfl, rfl, houtcome, first⟩ := exists_first_success success
  have within : s.attempt ≤ limit := by
    refine thrifty.attempt_le hs (actions s (List.mem_filter.2 ⟨?_, by simp⟩)) first
    exact hs.subset (List.mem_append_right _ List.mem_cons_self)
  have new : s ∉ d.records := fun hmem => by
    have success := hasSuccess_iff.2 ⟨s, hmem, rfl, rfl, houtcome⟩
    rw [used.unsuccessful] at success
    cases success
  have later : d.records <+: before := by
    rcases List.prefix_or_prefix_of_prefix earlier hs with h | h
    · refine (List.prefix_concat_iff.1 h).resolve_left fun heq => new ?_
      exact heq ▸ List.mem_append_right _ List.mem_cons_self
    · exact absurd (h.subset (List.mem_append_right _ List.mem_cons_self)) new
  have many : limit ≤ ({ db with records := before }.recordsOf s.run s.node).length :=
    used.le_length_recordsOf later
  rw [numbered.attempt_eq hs] at within
  omega

end Database

end CrmAutomation
