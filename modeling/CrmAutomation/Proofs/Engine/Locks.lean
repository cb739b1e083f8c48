import CrmAutomation.Engine.Turns
import Mathlib.Data.List.Nodup
import Mathlib.Data.List.Perm.Basic
import Mathlib.Tactic.ByContra

/-!
# Locks that come and go

`Turns` says whose turn it is at a key. What stands behind it is a table of locks: a caller takes
the lock that the table has for its key, or puts a new one there, counts itself among the users of
the lock, and waits in line until it has it. Who leaves gives up its place and counts itself out,
and the last user takes the entry out of the table. A lock that was taken out is not lost to those
who know it, so nothing but the count keeps two callers at one key from holding two locks.

A `Hall` has such a table and those who came through it. `Hall.Orderly` is what every arrival, entry
and departure keeps: the table has a lock for a key exactly while somebody is there, all who are
there were given that lock, and it serves them in the order in which they came (`Lock.Serves`).
`Hall.Keeps` says that `Turns` names the same callers in the same order.
-/

namespace CrmAutomation

/-! ## One lock -/

/-- A lock: those who wait for it in the order in which they came, and how many use it. -/
structure Lock where
  held : Bool := false
  waiting : List Nat := []
  users : Nat := 0
  deriving DecidableEq

namespace Lock

/-- A caller asks for the lock and has it at once if it is free and nobody waits for it. -/
def request (caller : Nat) (l : Lock) : Bool × Lock :=
  if !l.held && l.waiting.isEmpty then (true, { l with held := true, users := l.users + 1 })
  else (false, { l with waiting := l.waiting ++ [caller], users := l.users + 1 })

/-- The lock goes to the first who waits for it, once it is free. -/
def grant? (caller : Nat) (l : Lock) : Option Lock :=
  match l.waiting with
  | first :: others =>
    if !l.held && first == caller then some { l with held := true, waiting := others } else none
  | [] => none

/-- A caller is done with the lock: it gives it back if it has it, else it waits no longer. -/
def part (caller : Nat) (inside : Bool) (l : Lock) : Lock :=
  if inside then { l with held := false, users := l.users - 1 }
  else { l with waiting := l.waiting.erase caller, users := l.users - 1 }

end Lock

/-! ## The table -/

/-- All locks that were made, each known by its number, and the table of those that keys have. -/
structure Locks (κ : Type) where
  made : List Lock := []
  table : List (κ × Nat) := []

namespace Locks

variable {κ : Type} [DecidableEq κ]

/-- The lock that a key has. -/
def find? (key : κ) (t : Locks κ) : Option Nat := t.table.lookup key

def get (i : Nat) (t : Locks κ) : Lock := t.made[i]?.getD {}

def set (i : Nat) (l : Lock) (t : Locks κ) : Locks κ := { t with made := t.made.set i l }

/-- A new lock for a key. -/
def add (key : κ) (t : Locks κ) : Locks κ :=
  { made := t.made ++ [{}], table := t.table ++ [(key, t.made.length)] }

/-- The lock of a key; a key that has none gets a new one. -/
def obtain (key : κ) (t : Locks κ) : Nat × Locks κ :=
  match t.find? key with
  | some i => (i, t)
  | none => (t.made.length, t.add key)

/-- Takes the entry of a key out of the table when nobody uses its lock. -/
def tidy (key : κ) (i : Nat) (t : Locks κ) : Locks κ :=
  if (t.get i).users = 0 then { t with table := t.table.filter (·.1 ≠ key) } else t

end Locks

/-! ## Callers -/

/-- A caller at a key, with the lock that it was given. -/
structure Pass (κ : Type) where
  number : Nat
  key : κ
  lock : Nat
  inside : Bool

/-- A caller as it is after caller `n` went in. -/
def Pass.usher {κ : Type} (n : Nat) (p : Pass κ) : Pass κ :=
  if p.number = n then { p with inside := true } else p

/-- The locks, the callers who have not left in the order in which they came, how many came so
far, and who entered where, the first one first. -/
structure Hall (κ : Type) where
  locks : Locks κ := {}
  passes : List (Pass κ) := []
  came : Nat := 0
  entered : List (κ × Nat) := []

namespace Hall

variable {κ : Type} [DecidableEq κ]

/-- The callers at a key. -/
def callers (key : κ) (h : Hall κ) : List (Pass κ) := h.passes.filter (·.key = key)

/-- Those who entered at a key. -/
def enteredAt (key : κ) (h : Hall κ) : List Nat := (h.entered.filter (·.1 = key)).map (·.2)

/-- A caller comes to a key. -/
def arrive (key : κ) (h : Hall κ) : Hall κ :=
  let (i, locks) := h.locks.obtain key
  let (inside, lock) := (locks.get i).request h.came
  { locks := locks.set i lock
    passes := h.passes ++ [⟨h.came, key, i, inside⟩]
    came := h.came + 1
    entered := if inside then h.entered ++ [(key, h.came)] else h.entered }

/-- A caller who waits goes in if its lock is granted to it. -/
def enter (p : Pass κ) (h : Hall κ) : Hall κ :=
  match (h.locks.get p.lock).grant? p.number with
  | none => h
  | some lock =>
    { h with
      locks := h.locks.set p.lock lock
      passes := h.passes.map (Pass.usher p.number)
      entered := h.entered ++ [(p.key, p.number)] }

/-- A caller leaves, be it inside or not. -/
def leave (p : Pass κ) (h : Hall κ) : Hall κ :=
  { h with
    locks := (h.locks.set p.lock ((h.locks.get p.lock).part p.number p.inside)).tidy p.key p.lock
    passes := h.passes.filter (·.number ≠ p.number) }

end Hall

/-! ## Whom a lock serves -/

variable {κ : Type}

namespace Pass

@[simp] theorem number_usher (n : Nat) (p : Pass κ) : (p.usher n).number = p.number := by
  unfold usher
  split <;> rfl

@[simp] theorem key_usher (n : Nat) (p : Pass κ) : (p.usher n).key = p.key := by
  unfold usher
  split <;> rfl

@[simp] theorem lock_usher (n : Nat) (p : Pass κ) : (p.usher n).lock = p.lock := by
  unfold usher
  split <;> rfl

theorem usher_self (p : Pass κ) : p.usher p.number = { p with inside := true } := if_pos rfl

theorem usher_of_ne {n : Nat} {p : Pass κ} (h : p.number ≠ n) : p.usher n = p := if_neg h

theorem map_usher_of_ne {n : Nat} {ps : List (Pass κ)} (h : ∀ p ∈ ps, p.number ≠ n) :
    ps.map (Pass.usher n) = ps :=
  (List.map_congr_left fun p hp => usher_of_ne (h p hp)).trans (List.map_id ps)

/-- Where numbers are distinct, to erase one is to leave out its caller. -/
theorem erase_number {ps : List (Pass κ)} (h : (ps.map (·.number)).Nodup) (n : Nat) :
    (ps.map (·.number)).erase n = (ps.filter (·.number ≠ n)).map (·.number) := by
  rw [h.erase_eq_filter, List.filter_map]
  congr 1
  exact List.filter_congr fun q _ => by by_cases heq : q.number = n <;> simp [heq]

end Pass

/-- A lock knows those who are there: nobody has it and all of them wait, or the first one has it
and the others wait. -/
inductive Lock.Serves : Lock → List (Pass κ) → Prop
  | free {ps : List (Pass κ)} (waiting : ∀ p ∈ ps, p.inside = false) :
    Serves ⟨false, ps.map (·.number), ps.length⟩ ps
  | taken {p : Pass κ} {ps : List (Pass κ)} (inside : p.inside = true)
    (waiting : ∀ q ∈ ps, q.inside = false) :
    Serves ⟨true, ps.map (·.number), ps.length + 1⟩ (p :: ps)

namespace Lock.Serves

variable {l l' : Lock} {ps : List (Pass κ)} {p q : Pass κ}

theorem users (h : l.Serves ps) : l.users = ps.length := by
  cases h <;> rfl

theorem request (h : l.Serves ps) (n : Nat) (key : κ) (i : Nat) :
    (l.request n).2.Serves (ps ++ [⟨n, key, i, (l.request n).1⟩]) := by
  cases h with
  | free waiting =>
    cases ps with
    | nil => exact .taken rfl (by simp)
    | cons p ps =>
      have hall : ∀ q ∈ p :: ps ++ [⟨n, key, i, false⟩], q.inside = false := by
        intro q hq
        rcases List.mem_append.1 hq with hq | hq
        · exact waiting q hq
        · rw [List.mem_singleton.1 hq]
      simpa [Lock.request] using Lock.Serves.free hall
  | @taken p ps inside waiting =>
    have hall : ∀ q ∈ ps ++ [⟨n, key, i, false⟩], q.inside = false := by
      intro q hq
      rcases List.mem_append.1 hq with hq | hq
      · exact waiting q hq
      · rw [List.mem_singleton.1 hq]
    simpa [Lock.request] using Lock.Serves.taken inside hall

/-- A caller that has the lock at once finds nobody there. -/
theorem request_alone (h : l.Serves ps) {n : Nat} (hgot : (l.request n).1 = true) : ps = [] := by
  cases h with
  | free waiting =>
    cases ps with
    | nil => rfl
    | cons p ps => simp [Lock.request] at hgot
  | taken inside waiting => simp [Lock.request] at hgot

/-- The caller that a lock is granted to was the first in line, and nobody was inside. -/
theorem grant_first (h : l.Serves ps) {n : Nat} (hgrant : l.grant? n = some l') :
    ∃ p rest, ps = p :: rest ∧ p.number = n ∧ (∀ q ∈ ps, q.inside = false)
      ∧ l' = ⟨true, rest.map (·.number), rest.length + 1⟩ := by
  cases h with
  | free waiting =>
    cases ps with
    | nil => simp [Lock.grant?] at hgrant
    | cons p rest =>
      simp only [Lock.grant?, List.map_cons, Bool.not_false, Bool.true_and, beq_iff_eq,
        Option.ite_none_right_eq_some, Option.some.injEq] at hgrant
      obtain ⟨hn, rfl⟩ := hgrant
      exact ⟨p, rest, rfl, hn, waiting, rfl⟩
  | taken inside waiting =>
    simp only [Lock.grant?] at hgrant
    split at hgrant <;> simp at hgrant

theorem enter (h : l.Serves ps) (hnodup : (ps.map (·.number)).Nodup) {n : Nat}
    (hgrant : l.grant? n = some l') :
    l'.Serves (ps.map (Pass.usher n)) := by
  obtain ⟨p, rest, rfl, rfl, waiting, rfl⟩ := h.grant_first hgrant
  rw [List.map_cons, List.nodup_cons] at hnodup
  have hne : ∀ q ∈ rest, q.number ≠ p.number := fun q hq heq =>
    hnodup.1 (heq ▸ List.mem_map_of_mem hq)
  rw [List.map_cons, Pass.usher_self, Pass.map_usher_of_ne hne]
  exact .taken rfl fun q hq => waiting q (List.mem_cons_of_mem p hq)

theorem part (h : l.Serves ps) (hnodup : (ps.map (·.number)).Nodup) (hp : p ∈ ps) :
    (l.part p.number p.inside).Serves (ps.filter (·.number ≠ p.number)) := by
  have hlength (qs : List (Pass κ)) (hqs : (qs.map (·.number)).Nodup) (hmem : p ∈ qs) :
      qs.length = (qs.filter (·.number ≠ p.number)).length + 1 := by
    have hpos : 0 < qs.length := List.length_pos_of_mem hmem
    have := congrArg List.length (Pass.erase_number hqs p.number)
    rw [List.length_erase_of_mem (List.mem_map_of_mem hmem), List.length_map,
      List.length_map] at this
    omega
  cases h with
  | free waiting =>
    rw [waiting p hp, Lock.part, if_neg Bool.false_ne_true]
    simp only [Pass.erase_number hnodup, hlength ps hnodup hp, Nat.add_sub_cancel]
    exact .free fun q hq => waiting q (List.mem_of_mem_filter hq)
  | @taken first rest inside waiting =>
    rw [List.map_cons, List.nodup_cons] at hnodup
    rcases List.mem_cons.1 hp with rfl | hrest
    · have hsame : rest.filter (·.number ≠ p.number) = rest := by
        refine List.filter_eq_self.2 fun q hq => decide_eq_true fun heq => hnodup.1 ?_
        exact heq ▸ List.mem_map_of_mem hq
      rw [List.filter_cons_of_neg (by simp), hsame, inside]
      exact .free waiting
    · have hne : first.number ≠ p.number := fun heq =>
        hnodup.1 (heq ▸ List.mem_map_of_mem hrest)
      rw [waiting p hrest, Lock.part, if_neg Bool.false_ne_true,
        List.filter_cons_of_pos (by simpa using hne)]
      simp only [Pass.erase_number hnodup.2, hlength rest hnodup.2 hrest, Nat.add_sub_cancel]
      exact .taken inside fun q hq => waiting q (List.mem_of_mem_filter hq)

end Lock.Serves

/-! ## What the table has -/

variable [DecidableEq κ]

namespace Locks

variable {t t' : Locks κ} {key k : κ} {i j : Nat} {l : Lock} {ps : List (Pass κ)}

omit [DecidableEq κ] in
theorem get_eq (h : t.made[i]? = some l) : t.get i = l := by
  rw [get, h, Option.getD_some]

@[simp] theorem find?_set : (t.set i l).find? key = t.find? key := rfl

omit [DecidableEq κ] in
theorem made_set_self (h : i < t.made.length) (l : Lock) : (t.set i l).made[i]? = some l :=
  List.getElem?_set_self h

omit [DecidableEq κ] in
theorem made_set_of_ne (h : i ≠ j) (l : Lock) : (t.set i l).made[j]? = t.made[j]? :=
  List.getElem?_set_ne h

theorem lookup_cons (k key : κ) (i : Nat) (table : List (κ × Nat)) :
    ((key, i) :: table).lookup k = if k = key then some i else table.lookup k := by
  rw [List.lookup_cons]
  by_cases h : k = key
  · simp [h]
  · rw [beq_eq_false_iff_ne.2 h, if_neg h]

theorem lookup_filter_ne (key k : κ) : ∀ table : List (κ × Nat),
    (table.filter (·.1 ≠ key)).lookup k = if k = key then none else table.lookup k
  | [] => by simp
  | (k', i) :: table => by
    have ih := lookup_filter_ne key k table
    by_cases hk' : k' = key
    · subst hk'
      rw [List.filter_cons_of_neg (by simp), ih, lookup_cons]
      split <;> rfl
    · rw [List.filter_cons_of_pos (by simpa using hk'), lookup_cons, lookup_cons, ih]
      by_cases hk : k = k'
      · rw [if_pos hk, if_pos hk, if_neg (hk ▸ hk')]
      · rw [if_neg hk, if_neg hk]

theorem find?_isSome_iff : (t.find? key).isSome ↔ key ∈ t.table.map (·.1) := by
  rw [← Option.ne_none_iff_isSome, Ne, find?, List.lookup_eq_none_iff]
  simp only [bne_iff_ne, ne_eq, not_forall, not_not, List.mem_map, exists_prop]
  exact exists_congr fun e => and_congr_right fun _ => eq_comm

/-- Every entry is a lock that was made, and no two keys have one. -/
structure Sound (t : Locks κ) : Prop where
  made : ∀ {key i}, t.find? key = some i → i < t.made.length
  apart : ∀ {key k i}, t.find? key = some i → t.find? k = some i → key = k

/-- What is done at a key leaves the other keys their locks as they are. -/
def SameBut (key : κ) (t t' : Locks κ) : Prop :=
  ∀ k, k ≠ key → t'.find? k = t.find? k ∧ ∀ i, t.find? k = some i → t'.made[i]? = t.made[i]?

theorem SameBut.trans {t'' : Locks κ} (h : SameBut key t t') (h' : SameBut key t' t'') :
    SameBut key t t'' := fun k hk =>
  ⟨(h' k hk).1.trans (h k hk).1, fun i hi =>
    ((h' k hk).2 i ((h k hk).1.trans hi)).trans ((h k hk).2 i hi)⟩

theorem Sound.set (h : t.Sound) (i : Nat) (l : Lock) : (t.set i l).Sound where
  made hi := by simpa [Locks.set] using h.made hi
  apart hi hj := h.apart hi hj

theorem Sound.sameBut_set (h : t.Sound) (hi : t.find? key = some i) (l : Lock) :
    SameBut key t (t.set i l) := fun _ hk =>
  ⟨rfl, fun _ hj => made_set_of_ne (fun hij => hk (h.apart (hij ▸ hj) hi)) l⟩

theorem find?_add (key k : κ) (t : Locks κ) :
    (t.add key).find? k = (t.find? k).or (if k = key then some t.made.length else none) := by
  rw [find?, add, List.lookup_append, ← find?, lookup_cons, List.lookup_nil]

theorem find?_obtain (key : κ) (t : Locks κ) :
    (t.obtain key).2.find? key = some (t.obtain key).1 := by
  unfold obtain
  split
  · assumption
  · rename_i hnone
    rw [find?_add, hnone, if_pos rfl, Option.none_or]

theorem Sound.sameBut_obtain (h : t.Sound) (key : κ) : SameBut key t (t.obtain key).2 := by
  intro k hk
  unfold obtain
  split
  · exact ⟨rfl, fun _ _ => rfl⟩
  · refine ⟨?_, fun i hi => List.getElem?_append_left (h.made hi)⟩
    rw [find?_add, if_neg hk, Option.or_none]

theorem Sound.obtain (h : t.Sound) (key : κ) : (t.obtain key).2.Sound := by
  have hsame := h.sameBut_obtain key
  have hfind := find?_obtain key t
  cases hkey : t.find? key with
  | some i =>
    have heq : t.obtain key = (i, t) := by rw [Locks.obtain, hkey]
    rwa [heq]
  | none =>
    have heq : t.obtain key = (t.made.length, t.add key) := by rw [Locks.obtain, hkey]
    rw [heq] at hsame hfind ⊢
    -- the new lock has a number that no entry had
    have hold {k j} (hk : k ≠ key) (hj : (t.add key).find? k = some j) :
        t.find? k = some j ∧ j < t.made.length :=
      have hj' := (hsame k hk).1.symm.trans hj
      ⟨hj', h.made hj'⟩
    constructor
    · intro k j hj
      rw [add, List.length_append, List.length_singleton]
      by_cases hk : k = key
      · subst hk
        obtain rfl : t.made.length = j := Option.some.inj (hfind.symm.trans hj)
        exact Nat.lt_succ_self _
      · exact Nat.lt_succ_of_lt (hold hk hj).2
    · intro k k' j hj hj'
      by_cases hk : k = key <;> by_cases hk' : k' = key
      · rw [hk, hk']
      · subst hk
        exact absurd (Option.some.inj (hfind.symm.trans hj)) (Nat.ne_of_gt (hold hk' hj').2)
      · subst hk'
        exact absurd (Option.some.inj (hfind.symm.trans hj')) (Nat.ne_of_gt (hold hk hj).2)
      · exact h.apart (hold hk hj).1 (hold hk' hj').1

theorem find?_tidy (key k : κ) (i : Nat) (t : Locks κ) : (t.tidy key i).find? k
    = if (t.get i).users = 0 ∧ k = key then none else t.find? k := by
  unfold tidy
  split
  · rename_i hzero
    rw [find?, lookup_filter_ne, ← find?]
    simp [hzero]
  · rename_i hzero
    rw [if_neg fun h => hzero h.1]

theorem made_tidy (key : κ) (i : Nat) (t : Locks κ) : (t.tidy key i).made = t.made := by
  unfold tidy
  split <;> rfl

theorem Sound.tidy (h : t.Sound) (key : κ) (i : Nat) : (t.tidy key i).Sound := by
  have hfind {k j} (hj : (t.tidy key i).find? k = some j) : t.find? k = some j := by
    rw [find?_tidy] at hj
    split at hj
    · cases hj
    · exact hj
  exact ⟨fun hj => made_tidy key i t ▸ h.made (hfind hj),
    fun hj hj' => h.apart (hfind hj) (hfind hj')⟩

theorem sameBut_tidy (key : κ) (i : Nat) (t : Locks κ) : SameBut key t (t.tidy key i) := by
  intro k hk
  rw [find?_tidy, made_tidy, if_neg fun h => hk h.2]
  exact ⟨rfl, fun _ _ => rfl⟩

/-- What the table has for a key: nothing while nobody is there, else the lock that all who are
there were given, and which serves them. -/
inductive Entry (t : Locks κ) (key : κ) : List (Pass κ) → Prop
  | absent (unknown : t.find? key = none) : Entry t key []
  | present {ps : List (Pass κ)} {i : Nat} {l : Lock} (known : t.find? key = some i)
    (made : t.made[i]? = some l) (some_there : ps ≠ []) (given : ∀ p ∈ ps, p.lock = i)
    (serves : l.Serves ps) : Entry t key ps

namespace Entry

theorem sameBut (h : t.Entry k ps) (hsame : SameBut key t t') (hk : k ≠ key) : t'.Entry k ps := by
  cases h with
  | absent unknown => exact .absent ((hsame k hk).1.trans unknown)
  | present known made some_there given serves =>
    exact .present ((hsame k hk).1.trans known) (((hsame k hk).2 _ known).trans made) some_there
      given
      serves

/-- The lock that a key obtains was given to all who are there, and serves them. -/
theorem obtain (h : t.Entry key ps) : ∃ l, (t.obtain key).2.made[(t.obtain key).1]? = some l
    ∧ (∀ p ∈ ps, p.lock = (t.obtain key).1) ∧ l.Serves ps := by
  cases h with
  | absent unknown =>
    simp only [Locks.obtain, unknown]
    refine ⟨{}, by simp [add], by simp, ?_⟩
    exact @Lock.Serves.free κ [] fun _ hp => by cases hp
  | present known made some_there given serves =>
    simp only [Locks.obtain, known]
    exact ⟨_, made, given, serves⟩

/-- Those who are there have the lock that the table has. -/
theorem of_mem (h : t.Entry key ps) {p : Pass κ} (hp : p ∈ ps) :
    t.find? key = some p.lock ∧ t.made[p.lock]? = some (t.get p.lock)
      ∧ (∀ q ∈ ps, q.lock = p.lock) ∧ (t.get p.lock).Serves ps := by
  cases h with
  | absent => cases hp
  | present known made some_there given serves =>
    obtain rfl := given p hp
    rw [get_eq made]
    exact ⟨known, made, given, serves⟩

theorem find?_isSome_iff (h : t.Entry key ps) : (t.find? key).isSome ↔ ps ≠ [] := by
  cases h with
  | absent unknown => simp [unknown]
  | present known made some_there => simp [known, some_there]

end Entry

end Locks

/-! ## The hall in order -/

namespace Hall

variable {h : Hall κ} {key k : κ} {p q : Pass κ}

theorem mem_callers : p ∈ h.callers key ↔ p ∈ h.passes ∧ p.key = key := by
  simp [callers]

theorem numbers_arrive (key k : κ) (h : Hall κ) : ((h.arrive key).callers k).map (·.number)
    = if k = key then (h.callers k).map (·.number) ++ [h.came]
      else (h.callers k).map (·.number) := by
  unfold arrive
  rw [callers, List.filter_append, List.map_append]
  by_cases hk : k = key
  · subst hk
    rw [if_pos rfl, List.filter_cons_of_pos (by simp)]
    rfl
  · rw [if_neg hk, List.filter_cons_of_neg (by simpa using Ne.symm hk)]
    exact List.append_nil _

theorem callers_usher (k : κ) (n : Nat) (h : Hall κ) :
    (h.passes.map (Pass.usher n)).filter (·.key = k) = (h.callers k).map (Pass.usher n) := by
  rw [List.filter_map, callers]
  congr 1
  exact List.filter_congr fun q _ => by rw [Function.comp, Pass.key_usher]

theorem numbers_enter (p : Pass κ) (k : κ) (h : Hall κ) :
    ((h.enter p).callers k).map (·.number) = (h.callers k).map (·.number) := by
  unfold enter
  split
  · rfl
  · rw [callers, callers_usher, List.map_map]
    exact List.map_congr_left fun q _ => q.number_usher _

theorem callers_leave (p : Pass κ) (k : κ) (h : Hall κ) :
    (h.leave p).callers k = (h.callers k).filter (·.number ≠ p.number) :=
  List.filter_comm _ _ _

/-- What every arrival, entry and departure keeps. -/
structure Orderly (h : Hall κ) : Prop where
  sound : h.locks.Sound
  rising : (h.passes.map (·.number)).Pairwise (· < ·)
  numbered : ∀ p ∈ h.passes, p.number < h.came
  entry : ∀ key, h.locks.Entry key (h.callers key)
  inOrder : ∀ key, (h.enteredAt key).Pairwise (· < ·)
  recorded : ∀ e ∈ h.entered, e.2 < h.came
  ahead : ∀ p ∈ h.passes, p.inside = false → ∀ e ∈ h.entered, e.1 = p.key → e.2 < p.number
  logged : ∀ p ∈ h.passes, p.inside = true → (p.key, p.number) ∈ h.entered

theorem orderly_empty : ({} : Hall κ).Orderly where
  sound := ⟨fun h => (by simp [Locks.find?] at h), fun h => (by simp [Locks.find?] at h)⟩
  rising := .nil
  numbered := fun _ hp => by cases hp
  entry _ := .absent rfl
  inOrder _ := .nil
  recorded := fun _ he => by cases he
  ahead := fun _ hp => by cases hp
  logged := fun _ hp => by cases hp

/-- Those who entered at a key stay in order when one enters who came after all of them. -/
theorem pairwise_append {entered : List (κ × Nat)} {n : Nat}
    (hpairs : ∀ k, ((entered.filter (·.1 = k)).map (·.2)).Pairwise (· < ·))
    (hlast : ∀ e ∈ entered, e.1 = key → e.2 < n) (k : κ) :
    (((entered ++ [(key, n)]).filter (·.1 = k)).map (·.2)).Pairwise (· < ·) := by
  rw [List.filter_append, List.map_append]
  refine List.pairwise_append.2 ⟨hpairs k, ?_, fun a ha b hb => ?_⟩
  · by_cases hk : key = k <;> simp [hk]
  · obtain ⟨e, he, rfl⟩ := List.mem_map.1 ha
    obtain ⟨he, hek⟩ := List.mem_filter.1 he
    by_cases hk : key = k
    · obtain rfl : b = n := by simpa [hk] using hb
      exact hlast e he ((of_decide_eq_true hek).trans hk.symm)
    · simp [hk] at hb

namespace Orderly

variable (ho : h.Orderly)
include ho

theorem nodup : (h.passes.map (·.number)).Nodup := ho.rising.imp Nat.ne_of_lt

theorem rising_callers (key : κ) : ((h.callers key).map (·.number)).Pairwise (· < ·) :=
  ho.rising.sublist (List.filter_sublist.map _)

theorem nodup_callers (key : κ) : ((h.callers key).map (·.number)).Nodup :=
  (ho.rising_callers key).imp Nat.ne_of_lt

/-- The first of the callers at a key came before the others. -/
theorem first_le {first : Pass κ} {rest : List (Pass κ)} (hcallers : h.callers key = first :: rest)
    (hq : q ∈ h.callers key) : first.number ≤ q.number := by
  have hsorted := ho.rising_callers key
  rw [hcallers] at hq hsorted
  rcases List.mem_cons.1 hq with rfl | hq
  · exact Nat.le_refl _
  · exact Nat.le_of_lt ((List.pairwise_cons.1 hsorted).1 _ (List.mem_map_of_mem hq))

/-- Callers are told apart by their numbers. -/
theorem eq_of_number (hp : p ∈ h.passes) (hq : q ∈ h.passes) (hnumber : p.number = q.number) :
    p = q :=
  List.inj_on_of_nodup_map ho.nodup hp hq hnumber

theorem number_ne (hp : p ∈ h.passes) (hk : k ≠ p.key) :
    ∀ q ∈ h.callers k, q.number ≠ p.number := by
  intro q hq heq
  obtain ⟨hmem, rfl⟩ := mem_callers.1 hq
  exact hk (congrArg Pass.key (ho.eq_of_number hmem hp heq))

/-- Nobody enters after this caller's arrival counts as one who came before. -/
theorem skip : ({ h with came := h.came + 1 } : Hall κ).Orderly where
  sound := ho.sound
  rising := ho.rising
  numbered p hp := Nat.lt_succ_of_lt (ho.numbered p hp)
  entry := ho.entry
  inOrder := ho.inOrder
  recorded e he := Nat.lt_succ_of_lt (ho.recorded e he)
  ahead := ho.ahead
  logged := ho.logged

/-- Who arrives is given the lock of its key and is the last in line for it. -/
theorem entry_arrive (key k : κ) : (h.arrive key).locks.Entry k ((h.arrive key).callers k) := by
  obtain ⟨l, made, given, serves⟩ := (ho.entry key).obtain
  have hlt : (h.locks.obtain key).1 < (h.locks.obtain key).2.made.length :=
    (List.getElem?_eq_some_iff.1 made).1
  unfold Hall.arrive
  simp only [Locks.get_eq made]
  rw [callers, List.filter_append]
  by_cases hk : k = key
  · subst hk
    rw [List.filter_cons_of_pos (by simp), List.filter_nil]
    refine .present (Locks.find?_obtain k h.locks) (Locks.made_set_self hlt _) (by simp) ?_
      (serves.request h.came k _)
    intro p hp
    rcases List.mem_append.1 hp with hp | hp
    · exact given p hp
    · rw [List.mem_singleton.1 hp]
  · rw [List.filter_cons_of_neg (by simpa using Ne.symm hk), List.filter_nil, List.append_nil]
    exact (ho.entry k).sameBut ((ho.sound.sameBut_obtain key).trans
      ((ho.sound.obtain key).sameBut_set (Locks.find?_obtain key h.locks) _)) hk

theorem arrive (key : κ) : (h.arrive key).Orderly := by
  have hentry := ho.entry_arrive key
  obtain ⟨l, made, -, serves⟩ := (ho.entry key).obtain
  unfold Hall.arrive at hentry ⊢
  simp only [Locks.get_eq made] at hentry ⊢
  refine ⟨(ho.sound.obtain key).set _ _, ?_, ?_, hentry, fun k => ?_, ?_, ?_, ?_⟩
  · rw [List.map_append]
    refine List.pairwise_append.2 ⟨ho.rising, List.pairwise_singleton _ _, fun a ha b hb => ?_⟩
    obtain ⟨p, hp, rfl⟩ := List.mem_map.1 ha
    rw [List.mem_singleton.1 hb]
    exact ho.numbered p hp
  · intro p hp
    rcases List.mem_append.1 hp with hp | hp
    · exact Nat.lt_succ_of_lt (ho.numbered p hp)
    · rw [List.mem_singleton.1 hp]
      exact Nat.lt_succ_self _
  · rw [enteredAt]
    split
    · exact pairwise_append ho.inOrder (fun e he _ => ho.recorded e he) k
    · exact ho.inOrder k
  · intro e he
    split at he
    · rcases List.mem_append.1 he with he | he
      · exact Nat.lt_succ_of_lt (ho.recorded e he)
      · rw [List.mem_singleton.1 he]
        exact Nat.lt_succ_self _
    · exact Nat.lt_succ_of_lt (ho.recorded e he)
  · intro p hp hwaits e he hkey
    rcases List.mem_append.1 hp with hp | hp
    · have hold : e ∈ h.entered := by
        split at he
        · rename_i hin
          rcases List.mem_append.1 he with he | he
          · exact he
          · -- who goes in at once finds nobody there
            obtain rfl := List.mem_singleton.1 he
            have hmem : p ∈ h.callers key := mem_callers.2 ⟨hp, hkey.symm⟩
            rw [serves.request_alone hin] at hmem
            cases hmem
        · exact he
      exact ho.ahead p hp hwaits e hold hkey
    · rw [List.mem_singleton.1 hp] at hwaits ⊢
      simp only at hwaits
      rw [if_neg (by simp [hwaits])] at he
      exact ho.recorded e he
  · intro p hp inside
    rcases List.mem_append.1 hp with hp | hp
    · have hold := ho.logged p hp inside
      split
      · exact List.mem_append_left _ hold
      · exact hold
    · rw [List.mem_singleton.1 hp] at inside ⊢
      rw [if_pos inside]
      exact List.mem_append_right _ (List.mem_singleton_self _)

/-- The caller that its lock is granted to was the first in line, and waited. -/
theorem first_of_grant (hp : p ∈ h.passes) {l : Lock}
    (hgrant : (h.locks.get p.lock).grant? p.number = some l) :
    (∃ rest, h.callers p.key = p :: rest) ∧ p.inside = false := by
  obtain ⟨-, -, -, serves⟩ := (ho.entry p.key).of_mem (mem_callers.2 ⟨hp, rfl⟩)
  obtain ⟨first, rest, hcallers, hfirst, waiting, -⟩ := serves.grant_first hgrant
  have hmem : first ∈ h.callers p.key := hcallers ▸ List.mem_cons_self
  obtain rfl : first = p := ho.eq_of_number (mem_callers.1 hmem).1 hp hfirst
  exact ⟨⟨rest, hcallers⟩, waiting first hmem⟩

/-- The lock of a key is taken by the caller that it is granted to. -/
theorem entry_enter (hp : p ∈ h.passes) {l : Lock}
    (hgrant : (h.locks.get p.lock).grant? p.number = some l) (k : κ) :
    (h.locks.set p.lock l).Entry k ((h.callers k).map (Pass.usher p.number)) := by
  have hmem : p ∈ h.callers p.key := mem_callers.2 ⟨hp, rfl⟩
  obtain ⟨known, made, given, serves⟩ := (ho.entry p.key).of_mem hmem
  by_cases hk : k = p.key
  · subst hk
    refine .present known (Locks.made_set_self (ho.sound.made known) _)
      (List.ne_nil_of_mem (List.mem_map_of_mem hmem)) ?_
      (serves.enter (ho.nodup_callers _) hgrant)
    intro q hq
    obtain ⟨q, hq', rfl⟩ := List.mem_map.1 hq
    exact (q.lock_usher _).trans (given q hq')
  · rw [Pass.map_usher_of_ne (ho.number_ne hp hk)]
    exact (ho.entry k).sameBut (ho.sound.sameBut_set known l) hk

theorem enter (hp : p ∈ h.passes) : (h.enter p).Orderly := by
  unfold Hall.enter
  split
  · exact ho
  rename_i l hgrant
  obtain ⟨⟨rest, hcallers⟩, hwaits⟩ := ho.first_of_grant hp hgrant
  refine ⟨ho.sound.set _ _, ?_, ?_, fun k => ?_, ?_, ?_, ?_, ?_⟩
  · rw [List.map_map]
    exact (List.map_congr_left fun q _ => Pass.number_usher _ q) ▸ ho.rising
  · intro q hq
    obtain ⟨q, hq', rfl⟩ := List.mem_map.1 hq
    exact (q.number_usher _).symm ▸ ho.numbered q hq'
  · rw [callers, callers_usher]
    exact ho.entry_enter hp hgrant k
  · exact pairwise_append ho.inOrder (ho.ahead p hp hwaits)
  · intro e he
    rcases List.mem_append.1 he with he | he
    · exact ho.recorded e he
    · rw [List.mem_singleton.1 he]
      exact ho.numbered p hp
  · intro q hq hqwaits e he hkey
    obtain ⟨q, hq', rfl⟩ := List.mem_map.1 hq
    by_cases hn : q.number = p.number
    · rw [← hn, Pass.usher_self] at hqwaits
      cases hqwaits
    rw [Pass.usher_of_ne hn] at hqwaits hkey ⊢
    rcases List.mem_append.1 he with he | he
    · exact ho.ahead q hq' hqwaits e he hkey
    · obtain rfl := List.mem_singleton.1 he
      -- the others at the key came later
      have hle := ho.first_le hcallers (mem_callers.2 ⟨hq', hkey.symm⟩)
      exact Nat.lt_of_le_of_ne hle (Ne.symm hn)
  · intro q hq inside
    obtain ⟨q, hq', rfl⟩ := List.mem_map.1 hq
    by_cases hn : q.number = p.number
    · rw [ho.eq_of_number hq' hp hn, Pass.key_usher, Pass.number_usher]
      exact List.mem_append_right _ (List.mem_singleton_self _)
    · rw [Pass.usher_of_ne hn] at inside ⊢
      exact List.mem_append_left _ (ho.logged q hq' inside)

theorem leave (hp : p ∈ h.passes) : (h.leave p).Orderly := by
  obtain ⟨known, made, given, serves⟩ := (ho.entry p.key).of_mem (mem_callers.2 ⟨hp, rfl⟩)
  have hpart := serves.part (ho.nodup_callers _) (mem_callers.2 ⟨hp, rfl⟩)
  have hmem {q} (hq : q ∈ h.passes.filter (·.number ≠ p.number)) : q ∈ h.passes :=
    List.mem_of_mem_filter hq
  have hself := Locks.made_set_self (ho.sound.made known)
    ((h.locks.get p.lock).part p.number p.inside)
  refine ⟨(ho.sound.set _ _).tidy _ _, ho.rising.sublist ((List.filter_sublist).map _),
    fun q hq => ho.numbered q (hmem hq), fun k => ?_, ho.inOrder, ho.recorded,
    fun q hq => ho.ahead q (hmem hq), fun q hq => ho.logged q (hmem hq)⟩
  rw [callers_leave]
  unfold Hall.leave
  by_cases hk : k = p.key
  · subst hk
    by_cases hnone : (h.callers p.key).filter (·.number ≠ p.number) = []
    · rw [hnone] at hpart ⊢
      refine .absent ?_
      rw [Locks.find?_tidy, Locks.get_eq hself, hpart.users, if_pos ⟨rfl, rfl⟩]
    · refine .present ?_ ((congrArg (·[p.lock]?) (Locks.made_tidy p.key p.lock _)).trans hself)
        hnone
        (fun q hq => given q (List.mem_of_mem_filter hq)) hpart
      rw [Locks.find?_tidy, Locks.get_eq hself, hpart.users,
        if_neg fun h => hnone (List.length_eq_zero_iff.1 h.1)]
      exact known
  · rw [List.filter_eq_self.2 fun q hq => decide_eq_true (ho.number_ne hp hk q hq)]
    exact (ho.entry k).sameBut
      ((ho.sound.sameBut_set known _).trans (Locks.sameBut_tidy p.key p.lock _)) hk

/-! What an orderly hall shows. -/

/-- The table has a lock for a key exactly while somebody is there. -/
theorem mem_table_iff (key : κ) :
    key ∈ h.locks.table.map (·.1) ↔ ∃ p ∈ h.passes, p.key = key := by
  rw [← Locks.find?_isSome_iff, (ho.entry key).find?_isSome_iff]
  constructor
  · intro hsome
    exact (List.exists_mem_of_ne_nil _ hsome).imp fun p hp => mem_callers.1 hp
  · rintro ⟨p, hp⟩
    exact List.ne_nil_of_mem (mem_callers.2 hp)

/-- Where nobody is, the table is empty. -/
theorem table_eq_nil (hnone : h.passes = []) : h.locks.table = [] := by
  refine List.eq_nil_iff_forall_not_mem.2 fun e he => ?_
  obtain ⟨p, hp, -⟩ := (ho.mem_table_iff e.1).1 (List.mem_map_of_mem he)
  rw [hnone] at hp
  cases hp

end Orderly

end Hall

/-! ## Turns -/

namespace Turns

theorem callers_cons (key k : κ) (cs : List Nat) (t : Turns κ) :
    callers key ((k, cs) :: t) = if k = key then cs else callers key t := rfl

theorem callers_eq_nil {key : κ} : ∀ {t : Turns κ}, key ∉ t.map (·.1) → callers key t = []
  | [], _ => rfl
  | (k, cs) :: t, h => by
    rw [List.map_cons, List.mem_cons, not_or] at h
    rw [callers_cons, if_neg (Ne.symm h.1), callers_eq_nil h.2]

theorem callers_arrive (key k : κ) (n : Nat) : ∀ t : Turns κ,
    callers k (arrive key n t) = if k = key then callers k t ++ [n] else callers k t
  | [] => by
    by_cases hk : key = k <;> simp [arrive, callers, hk, eq_comm]
  | (k', cs) :: t => by
    have ih := callers_arrive key k n t
    unfold arrive
    by_cases hk' : k' = key
    · subst hk'
      rw [if_pos rfl, callers_cons, callers_cons]
      by_cases hk : k' = k
      · simp [hk]
      · simp [hk, Ne.symm hk]
    · rw [if_neg hk', callers_cons, callers_cons, ih]
      by_cases hk : k' = k
      · subst hk
        simp [hk']
      · simp [hk]

theorem keys_arrive (key : κ) (n : Nat) : ∀ t : Turns κ, (arrive key n t).map (·.1)
    = if key ∈ t.map (·.1) then t.map (·.1) else t.map (·.1) ++ [key]
  | [] => rfl
  | (k, cs) :: t => by
    unfold arrive
    by_cases hk : k = key
    · simp [hk]
    · rw [if_neg hk, List.map_cons, keys_arrive key n t]
      by_cases hmem : key ∈ t.map (·.1)
      · rw [if_pos hmem, List.map_cons, if_pos (List.mem_cons_of_mem _ hmem)]
      · rw [if_neg hmem, List.map_cons, if_neg (by simpa [Ne.symm hk] using hmem), List.cons_append]

theorem callers_filter (k : κ) : ∀ {t : Turns κ}, (t.map (·.1)).Nodup →
    callers k (t.filter fun p => !p.2.isEmpty) = callers k t
  | [], _ => rfl
  | (k', cs) :: t, h => by
    rw [List.map_cons, List.nodup_cons] at h
    have ih := callers_filter k h.2
    cases cs with
    | nil =>
      rw [List.filter_cons_of_neg (by simp), ih, callers_cons]
      split
      · rename_i hk
        exact callers_eq_nil (hk ▸ h.1)
      · rfl
    | cons c cs => rw [List.filter_cons_of_pos (by simp), callers_cons, callers_cons, ih]

theorem callers_map (key k : κ) (n : Nat) : ∀ t : Turns κ,
    callers k (t.map fun p => if p.1 = key then (p.1, p.2.erase n) else p)
      = if k = key then (callers k t).erase n else callers k t
  | [] => by simp [callers]
  | (k', cs) :: t => by
    have ih := callers_map key k n t
    rw [List.map_cons]
    by_cases hk' : k' = key
    · subst hk'
      rw [if_pos rfl, callers_cons, callers_cons, ih]
      by_cases hk : k' = k
      · simp [hk]
      · simp [hk, Ne.symm hk]
    · rw [if_neg hk', callers_cons, callers_cons, ih]
      by_cases hk : k' = k
      · subst hk
        simp [hk']
      · simp [hk]

theorem keys_map (key : κ) (n : Nat) (t : Turns κ) :
    (t.map fun p => if p.1 = key then (p.1, p.2.erase n) else p).map (·.1) = t.map (·.1) := by
  rw [List.map_map]
  refine List.map_congr_left fun p _ => ?_
  rw [Function.comp]
  split <;> rfl

theorem keys_leave (key : κ) (n : Nat) (t : Turns κ) :
    ((leave key n t).map (·.1)).Sublist (t.map (·.1)) :=
  keys_map key n t ▸ List.filter_sublist.map _

theorem callers_leave (key k : κ) (n : Nat) {t : Turns κ} (h : (t.map (·.1)).Nodup) :
    callers k (leave key n t) = if k = key then (callers k t).erase n else callers k t := by
  rw [leave, callers_filter k ((keys_map key n t).symm ▸ h), callers_map]

end Turns

namespace Hall

variable {h : Hall κ} {t : Turns κ} {p : Pass κ}

/-- The turns name the callers at each key, in the same order. -/
structure Keeps (h : Hall κ) (t : Turns κ) : Prop where
  keys : (t.map (·.1)).Nodup
  callers : ∀ key, t.callers key = (h.callers key).map (·.number)

namespace Keeps

theorem arrive (hk : h.Keeps t) (key : κ) : (h.arrive key).Keeps (t.arrive key h.came) where
  keys := by
    rw [Turns.keys_arrive]
    split
    · exact hk.keys
    · rename_i hmem
      refine List.nodup_append.2 ⟨hk.keys, List.nodup_singleton _, fun a ha b hb => ?_⟩
      rw [List.mem_singleton.1 hb]
      exact fun heq => hmem (heq ▸ ha)
  callers k := by rw [Turns.callers_arrive, numbers_arrive, hk.callers]

theorem enter (hk : h.Keeps t) (p : Pass κ) : (h.enter p).Keeps t where
  keys := hk.keys
  callers k := by rw [numbers_enter, hk.callers]

theorem leave (hk : h.Keeps t) (ho : h.Orderly) (hp : p ∈ h.passes) :
    (h.leave p).Keeps (t.leave p.key p.number) where
  keys := hk.keys.sublist (Turns.keys_leave p.key p.number t)
  callers k := by
    rw [Turns.callers_leave p.key k p.number hk.keys, hk.callers, callers_leave]
    split
    · exact Pass.erase_number (ho.nodup_callers k) p.number
    · rename_i hkey
      rw [List.filter_eq_self.2 fun q hq => decide_eq_true (ho.number_ne hp hkey q hq)]

end Keeps

end Hall

end CrmAutomation
