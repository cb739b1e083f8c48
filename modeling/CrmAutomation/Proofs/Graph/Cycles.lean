import CrmAutomation.Proofs.Graph.Reachability

/-!
# Circles in a graph

`Graph.closingEdges` searches a graph depth first and lists the edges that lead back into the path
it is on. Every such edge closes a circle, as what is on the path leads to where the search is
(`circle_of_mem_closingEdges`).

Without these edges there is no circle (`WellFormed.not_circle_without`). What a search has finished
stands in a list in which every position leads to later ones only (`Graph.Descends`), but for the
edges that close a circle: a position is put at the front when all it leads to was visited, and what
it leads to is either on the path, so that the edge closes a circle, or finished. Each nested search
has a longer path of distinct positions, so the fuel suffices. In particular no edge closes a circle
just when there is none (`WellFormed.closingEdges_eq_nil_iff`).
-/

namespace CrmAutomation

open Relation (ReflTransGen TransGen)

namespace Graph

variable {g : Graph} {visit : List Nat → Nat → List Nat → Search} {current : Nat}
  {path children finished roots : List Nat} {left : List (Nat × Nat)}

/-! ## What closes a circle -/

/-- Every edge that was found leads to a position that leads back to where the edge begins. -/
def Search.Circular (g : Graph) (s : Search) : Prop :=
  ∀ e ∈ s.closing, g.Joins e.1 e.2 ∧ ReflTransGen g.Joins e.2 e.1

theorem circular_searchChildren
    (hvisit : ∀ child finished, (∀ p ∈ path, TransGen g.Joins p child) →
      (visit path child finished).Circular g)
    (hpath : ∀ p ∈ path, ReflTransGen g.Joins p current)
    (hchildren : ∀ child ∈ children, g.Joins current child) :
    (searchChildren visit path current children finished).Circular g := by
  induction children generalizing finished with
  | nil => simp [searchChildren, Search.Circular]
  | cons child rest ih =>
    have hrest : ∀ finished, (searchChildren visit path current rest finished).Circular g :=
      fun _ => ih fun c hc => hchildren c (List.mem_cons_of_mem _ hc)
    have hjoins := hchildren child List.mem_cons_self
    rw [searchChildren]
    split
    · rename_i hback
      rintro e (_ | ⟨_, he⟩)
      · exact ⟨hjoins, hpath child hback⟩
      · exact hrest _ e he
    · split
      · exact hrest _
      · intro e he
        rcases List.mem_append.1 he with he | he
        · exact hvisit child _ (fun p hp => .tail' (hpath p hp) hjoins) e he
        · exact hrest _ e he

theorem circular_searchFrom (fuel : Nat) (hpath : ∀ p ∈ path, TransGen g.Joins p current) :
    (searchFrom g fuel path current finished).Circular g := by
  induction fuel generalizing path current finished with
  | zero => simp [searchFrom, Search.Circular]
  | succ fuel ih =>
    refine circular_searchChildren (fun child _ hchild => ih hchild) (fun p hp => ?_) fun child hc =>
      mem_successors.1 hc
    rcases List.mem_cons.1 hp with rfl | hp
    · exact .refl
    · exact (hpath p hp).to_reflTransGen

theorem circular_searchRoots : (searchRoots g roots finished).Circular g := by
  induction roots generalizing finished with
  | nil => simp [searchRoots, Search.Circular]
  | cons root rest ih =>
    rw [searchRoots]
    split
    · exact ih
    · intro e he
      rcases List.mem_append.1 he with he | he
      · exact circular_searchFrom g.size (by simp) e he
      · exact ih e he

theorem circle_of_mem_closingEdges {e : Nat × Nat} (h : e ∈ g.closingEdges) :
    g.Joins e.1 e.2 ∧ ReflTransGen g.Joins e.2 e.1 :=
  circular_searchRoots e h

/-! ## Positions that lead to later ones only -/

/-- An edge that is not left out leads from a position to another. -/
def JoinsWithout (g : Graph) (left : List (Nat × Nat)) (i j : Nat) : Prop :=
  g.Joins i j ∧ (i, j) ∉ left

/-- Every position of a list leads to later ones of the list only, but for edges left out. -/
inductive Descends (g : Graph) (left : List (Nat × Nat)) : List Nat → Prop where
  | nil : Descends g left []
  | cons {i : Nat} {rest : List Nat} (apart : i ∉ rest)
    (leads : ∀ j, g.JoinsWithout left i j → j ∈ rest) (tail : Descends g left rest) :
    Descends g left (i :: rest)

namespace Descends

variable {positions : List Nat}

theorem mem_of_reflTransGen (h : g.Descends left positions) {i j : Nat} (hi : i ∈ positions)
    (hij : ReflTransGen (g.JoinsWithout left) i j) : j ∈ positions := by
  induction hij with
  | refl => exact hi
  | tail _ hjoins ih =>
    clear hi
    induction h with
    | nil => simp at ih
    | cons _ leads _ ihtail =>
      rcases List.mem_cons.1 ih with rfl | hrest
      · exact List.mem_cons_of_mem _ (leads _ hjoins)
      · exact List.mem_cons_of_mem _ (ihtail hrest)

theorem not_circle (h : g.Descends left positions) {i : Nat} (hi : i ∈ positions) :
    ¬TransGen (g.JoinsWithout left) i i := by
  induction h with
  | nil => simp at hi
  | cons apart leads tail ih =>
    rcases List.mem_cons.1 hi with rfl | hi
    · intro hcircle
      obtain ⟨j, hjoins, hback⟩ := TransGen.head'_iff.1 hcircle
      exact apart (tail.mem_of_reflTransGen (leads j hjoins) hback)
    · exact ih hi

end Descends

/-! ## What a search finishes -/

/-- A search on a path has finished its targets, and nothing on the path. What it has finished
descends without the edges that are left out. -/
structure Search.Clears (g : Graph) (left : List (Nat × Nat)) (path finished : List Nat)
    (target : Nat → Prop) (s : Search) : Prop where
  descends : g.Descends left s.finished
  kept : finished ⊆ s.finished
  visited : ∀ i, target i → i ∈ s.finished
  apart : path.Disjoint s.finished

/-- The edges to children on the path close a circle; all other children are finished. -/
theorem clears_searchChildren
    (hvisit : ∀ child ∈ children, ∀ finished, child ∉ path → child ∉ finished →
      g.Descends left finished → path.Disjoint finished →
      (visit path child finished).closing ⊆ left →
      (visit path child finished).Clears g left path finished (· = child))
    (descends : g.Descends left finished) (apart : path.Disjoint finished)
    (hleft : (searchChildren visit path current children finished).closing ⊆ left) :
    (searchChildren visit path current children finished).Clears g left path finished
      fun i => i ∈ children ∧ (current, i) ∉ left := by
  induction children generalizing finished with
  | nil => exact ⟨descends, List.Subset.refl _, by simp, apart⟩
  | cons child rest ih =>
    have hlater := fun c hc => hvisit c (List.mem_cons_of_mem _ hc)
    rw [searchChildren] at hleft ⊢
    split at hleft
    · rename_i hback
      obtain ⟨hclosing, hrest⟩ := List.cons_subset.1 hleft
      obtain ⟨hdescends, hkept, hvisited, hapart⟩ := ih hlater descends apart hrest
      rw [if_pos hback]
      refine ⟨hdescends, hkept, fun i ⟨hi, hne⟩ => ?_, hapart⟩
      rcases List.mem_cons.1 hi with rfl | hi
      · exact absurd hclosing hne
      · exact hvisited i ⟨hi, hne⟩
    · rename_i hpath
      split at hleft
      · rename_i hmet
        obtain ⟨hdescends, hkept, hvisited, hapart⟩ := ih hlater descends apart hleft
        rw [if_neg hpath, if_pos hmet]
        refine ⟨hdescends, hkept, fun i ⟨hi, hne⟩ => ?_, hapart⟩
        rcases List.mem_cons.1 hi with rfl | hi
        · exact hkept hmet
        · exact hvisited i ⟨hi, hne⟩
      · rename_i hmet
        obtain ⟨hfirst, hrest⟩ := List.append_subset.1 hleft
        have hclears := hvisit child List.mem_cons_self finished hpath hmet descends apart hfirst
        obtain ⟨hdescends, hkept, hvisited, hapart⟩ :=
          ih hlater hclears.descends hclears.apart hrest
        rw [if_neg hpath, if_neg hmet]
        refine ⟨hdescends, List.Subset.trans hclears.kept hkept, fun i ⟨hi, hne⟩ => ?_, hapart⟩
        rcases List.mem_cons.1 hi with rfl | hi
        · exact hkept (hclears.visited i rfl)
        · exact hvisited i ⟨hi, hne⟩

/-- With fuel for every position that is not on its path, a search finishes all that its position
leads to, and then the position. -/
theorem WellFormed.clears_searchFrom (wf : g.WellFormed) (fuel : Nat)
    (distinct : (current :: path).Nodup) (bounded : ∀ i ∈ current :: path, i < g.size)
    (henough : g.size ≤ path.length + fuel) (hcurrent : current ∉ finished)
    (descends : g.Descends left finished) (apart : path.Disjoint finished)
    (hleft : (searchFrom g fuel path current finished).closing ⊆ left) :
    (searchFrom g fuel path current finished).Clears g left path finished (· = current) := by
  induction fuel generalizing path current finished with
  | zero =>
    have hlength := length_le_size distinct bounded
    rw [List.length_cons] at hlength
    omega
  | succ fuel ih =>
    have happart : (current :: path).Disjoint finished :=
      List.disjoint_cons_left.2 ⟨hcurrent, apart⟩
    have hchildren : (searchChildren (searchFrom g fuel) (current :: path) current
        (g.successors current) finished).Clears g left (current :: path) finished
          fun i => i ∈ g.successors current ∧ (current, i) ∉ left := by
      refine clears_searchChildren (fun child hc finished hpath hmet => ?_) descends happart hleft
      exact ih (List.nodup_cons.2 ⟨hpath, distinct⟩)
        (List.forall_mem_cons.2 ⟨(wf.lt_of_joins (mem_successors.1 hc)).2, bounded⟩)
        (by rw [List.length_cons]; omega) hmet
    obtain ⟨hfree, hpathFree⟩ := List.disjoint_cons_left.1 hchildren.apart
    refine ⟨.cons hfree (fun j hj => ?_) hchildren.descends,
      fun i hi => List.mem_cons_of_mem _ (hchildren.kept hi), ?_,
      List.disjoint_cons_right.2 ⟨(List.nodup_cons.1 distinct).1, hpathFree⟩⟩
    · exact hchildren.visited j ⟨mem_successors.2 hj.1, hj.2⟩
    · rintro i rfl
      exact List.mem_cons_self

theorem WellFormed.clears_searchRoots (wf : g.WellFormed) (bounded : ∀ i ∈ roots, i < g.size)
    (descends : g.Descends left finished) (hleft : (searchRoots g roots finished).closing ⊆ left) :
    (searchRoots g roots finished).Clears g left [] finished (· ∈ roots) := by
  induction roots generalizing finished with
  | nil => exact ⟨descends, List.Subset.refl _, by simp, List.disjoint_nil_left _⟩
  | cons root rest ih =>
    obtain ⟨hroot, hbounded⟩ := List.forall_mem_cons.1 bounded
    rw [searchRoots] at hleft ⊢
    split at hleft
    · rename_i hmet
      obtain ⟨hdescends, hkept, hvisited, hapart⟩ := ih hbounded descends hleft
      rw [if_pos hmet]
      exact ⟨hdescends, hkept, List.forall_mem_cons.2 ⟨hkept hmet, hvisited⟩, hapart⟩
    · rename_i hmet
      obtain ⟨hfirst, hrest⟩ := List.append_subset.1 hleft
      have hclears := wf.clears_searchFrom g.size (by simp) (by simpa using hroot) (by simp) hmet
        descends (List.disjoint_nil_left _) hfirst
      obtain ⟨hdescends, hkept, hvisited, hapart⟩ := ih hbounded hclears.descends hrest
      rw [if_neg hmet]
      exact ⟨hdescends, List.Subset.trans hclears.kept hkept,
        List.forall_mem_cons.2 ⟨hkept (hclears.visited root rfl), hvisited⟩, hapart⟩

/-- Without the edges that were found to close a circle there is none. -/
theorem WellFormed.not_circle_without (wf : g.WellFormed) (i : Nat) :
    ¬TransGen (g.JoinsWithout g.closingEdges) i i := by
  intro hcircle
  have hclears := wf.clears_searchRoots (fun i hi => List.mem_range.1 hi) .nil
    (List.Subset.refl g.closingEdges)
  obtain ⟨j, hjoins, -⟩ := TransGen.head'_iff.1 hcircle
  have hi : i ∈ List.range g.size := List.mem_range.2 (wf.lt_of_joins hjoins.1).1
  exact hclears.descends.not_circle (hclears.visited i hi) hcircle

/-- The search finds no edge that closes a circle just when there is no circle. -/
theorem WellFormed.closingEdges_eq_nil_iff (wf : g.WellFormed) :
    g.closingEdges = [] ↔ ∀ i, ¬TransGen g.Joins i i := by
  constructor
  · intro hnone i hcircle
    refine wf.not_circle_without i (TransGen.mono (fun j k hjoins => ⟨hjoins, ?_⟩) i i hcircle)
    rw [hnone]
    exact List.not_mem_nil
  · intro hacyclic
    refine List.eq_nil_iff_forall_not_mem.2 fun e he => ?_
    obtain ⟨hjoins, hback⟩ := circle_of_mem_closingEdges he
    exact hacyclic e.1 (.head' hjoins hback)

end Graph

end CrmAutomation
