import CrmAutomation.Graph.Validation
import CrmAutomation.Proofs.Graph.Shape
import Mathlib.Data.List.Perm.Subperm
import Mathlib.Logic.Relation

/-!
# What a graph can reach

`Graph.Joins` says that an edge leads from one position to another, so that its reflexive transitive
closure is reachability along the edges. `Graph.explore` computes it breadth first: the positions
it has met are those it has followed all edges from, and after them its queue (`Graph.Explored`).
Every step moves one position from the queue to those followed (`Explored.step`), and as the
positions met are distinct, there are no more steps than nodes. So the exploration ends with an
empty queue, and what it has met is what can be reached (`WellFormed.mem_reachableFrom`).
-/

namespace CrmAutomation

open Relation (ReflTransGen)

theorem nodup_eraseDups (l : List Nat) : l.eraseDups.Nodup := by
  match l with
  | [] => simp
  | i :: rest =>
    rw [List.eraseDups_cons, List.nodup_cons]
    exact ⟨by simp [List.mem_eraseDups], nodup_eraseDups (rest.filter fun j => !j == i)⟩
  termination_by l.length
  decreasing_by exact Nat.lt_succ_of_le (List.length_filter_le _ _)

namespace Graph

/-- An edge leads from a position to another. -/
def Joins (g : Graph) (i j : Nat) : Prop := ∃ e ∈ g.edges, e.source = i ∧ e.target = j

variable {g : Graph} {start i j : Nat} {done queue : List Nat}

/-- There are no more distinct positions than nodes. -/
theorem length_le_size {positions : List Nat} (distinct : positions.Nodup)
    (bounded : ∀ i ∈ positions, i < g.size) : positions.length ≤ g.size := by
  have hsub : positions ⊆ List.range g.size := fun i hi => List.mem_range.2 (bounded i hi)
  simpa using (distinct.subperm hsub).length_le

@[simp]
theorem mem_successors : j ∈ g.successors i ↔ g.Joins i j := by
  simp only [successors, outgoingAt, List.mem_map, List.mem_filter, beq_iff_eq, Joins, and_assoc]

theorem isEmpty_incomingAt_iff : (g.incomingAt j).isEmpty ↔ ∀ i, ¬g.Joins i j := by
  simp only [incomingAt, List.isEmpty_iff, List.filter_eq_nil_iff, beq_iff_eq, Joins, not_exists,
    not_and]
  exact ⟨fun h i e he _ => h e he, fun h e he => h e.source e he rfl⟩

theorem WellFormed.lt_of_joins (wf : g.WellFormed) (h : g.Joins i j) : i < g.size ∧ j < g.size := by
  obtain ⟨e, he, rfl, rfl⟩ := h
  exact ⟨wf.source_lt e he, wf.target_lt e he⟩

/-! ## Exploring breadth first -/

/-- The positions that an exploration has followed all edges from, and those that are left in its
queue: together they are what it has met. -/
structure Explored (g : Graph) (start : Nat) (done queue : List Nat) : Prop where
  started : start ∈ done ++ queue
  distinct : (done ++ queue).Nodup
  bounded : ∀ i ∈ done ++ queue, i < g.size
  closed : ∀ i ∈ done, ∀ j, g.Joins i j → j ∈ done ++ queue
  reached : ∀ i ∈ done ++ queue, ReflTransGen g.Joins start i

/-- The successors of a position that are new. -/
def fresh (g : Graph) (i : Nat) (seen : List Nat) : List Nat :=
  ((g.successors i).filter fun j => !seen.contains j).eraseDups

theorem mem_fresh {seen : List Nat} : j ∈ g.fresh i seen ↔ g.Joins i j ∧ j ∉ seen := by
  simp [fresh, List.mem_eraseDups]

theorem Explored.step (wf : g.WellFormed) (h : g.Explored start done (i :: queue)) :
    g.Explored start (done ++ [i]) (queue ++ g.fresh i (done ++ i :: queue)) := by
  have hmet : (done ++ [i]) ++ (queue ++ g.fresh i (done ++ i :: queue)) =
      (done ++ i :: queue) ++ g.fresh i (done ++ i :: queue) := by simp
  have hi : i ∈ done ++ i :: queue := by simp
  constructor <;> try rw [hmet]
  · exact List.mem_append_left _ h.started
  · refine h.distinct.append (nodup_eraseDups _) fun j hj hfresh => ?_
    exact (mem_fresh.1 hfresh).2 hj
  · intro j hj
    rcases List.mem_append.1 hj with hj | hj
    · exact h.bounded j hj
    · exact (wf.lt_of_joins (mem_fresh.1 hj).1).2
  · intro k hk j hkj
    rcases List.mem_append.1 hk with hk | hk
    · exact List.mem_append_left _ (h.closed k hk j hkj)
    · rw [List.mem_singleton.1 hk] at hkj
      by_cases hj : j ∈ done ++ i :: queue
      · exact List.mem_append_left _ hj
      · exact List.mem_append_right _ (mem_fresh.2 ⟨hkj, hj⟩)
  · intro j hj
    rcases List.mem_append.1 hj with hj | hj
    · exact h.reached j hj
    · exact (h.reached i hi).tail (mem_fresh.1 hj).1

/-- With fuel for every position that it has not followed, an exploration ends with an empty queue. -/
theorem Explored.explore (wf : g.WellFormed) (fuel : Nat) (h : g.Explored start done queue)
    (henough : g.size ≤ done.length + fuel) :
    g.Explored start (g.explore fuel queue (done ++ queue)) [] := by
  induction fuel generalizing done queue with
  | zero =>
    have hlength := length_le_size h.distinct h.bounded
    rw [List.length_append] at hlength
    obtain rfl : queue = [] := List.eq_nil_of_length_eq_zero (by omega)
    simpa [Graph.explore] using h
  | succ fuel ih =>
    cases queue with
    | nil => simpa [Graph.explore] using h
    | cons i queue =>
      have hnext := ih (h.step wf) (by rw [List.length_append, List.length_singleton]; omega)
      simpa [Graph.explore, fresh] using hnext

/-- The positions explored are those that can be reached. -/
theorem WellFormed.mem_reachableFrom (wf : g.WellFormed) (hstart : start < g.size) :
    i ∈ g.reachableFrom start ↔ ReflTransGen g.Joins start i := by
  have hbegun : g.Explored start [] [start] := by
    constructor <;> simp [hstart, ReflTransGen.refl]
  have hend := hbegun.explore wf g.size (by simp)
  rw [List.nil_append, ← reachableFrom] at hend
  refine ⟨fun hi => hend.reached i (by simpa using hi), fun hi => ?_⟩
  induction hi with
  | refl => simpa using hend.started
  | tail _ hjoins ih => simpa using hend.closed _ ih _ hjoins

end Graph

end CrmAutomation
