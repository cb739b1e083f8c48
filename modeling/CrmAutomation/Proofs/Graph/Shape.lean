import CrmAutomation.Graph.Reader
import Mathlib.Data.List.Nodup

/-!
# The shape of a graph that was read

A graph is a list of nodes and a list of edges between their positions. Nothing in this keeps two
nodes from having one id or an edge from leading past the end of the list: that a graph which was
read does neither is proved here (`Graph.wellFormed_of_ofValue`).

In a graph of this shape a node is known by its id as well as by its position, so that what is
looked up by id (`Graph.indexOf?`, `Graph.node?`, `Graph.outgoing`, `Graph.incoming`) is what stands
at the position.
-/

namespace CrmAutomation

namespace Graph

/-- The nodes have ids of their own, and the edges lead from one of them to another. -/
structure WellFormed (g : Graph) : Prop where
  distinct : (g.nodes.map (·.id)).Nodup
  source_lt : ∀ e ∈ g.edges, e.source < g.size
  target_lt : ∀ e ∈ g.edges, e.target < g.size

/-! ## Reading nodes -/

namespace Reader

theorem id_eq_of_node {id : String} {raw : Value} {n : Node} (h : node id raw = .ok n) :
    n.id = id := by
  rw [node] at h
  split at h
  · cases h
  · split at h
    · simp only [bind, Except.bind, pure, Except.pure] at h
      split at h <;> cases h
      rfl
    · cases h

/-- A node is read only where its id was not met before. -/
theorem id_notMem_of_mem_scanNodes {n : Node} (position : Nat) (seen : List String)
    (raws : List Value) (h : n ∈ (scanNodes position seen raws).nodes) : n.id ∉ seen := by
  fun_induction scanNodes position seen raws with
  | case1 => simp at h
  | case2 _ _ _ _ _ _ ih => exact ih h
  | case3 _ _ _ _ _ _ _ _ ih => exact ih h
  | case4 _ _ _ _ _ _ _ _ _ _ ih => exact fun hseen => ih h (List.mem_cons_of_mem _ hseen)
  | case5 _ _ _ _ _ _ fresh _ m hm ih =>
    rcases List.mem_cons.1 h with rfl | h
    · rwa [id_eq_of_node hm]
    · exact fun hseen => ih h (List.mem_cons_of_mem _ hseen)

theorem nodup_scanNodes (position : Nat) (seen : List String) (raws : List Value) :
    ((scanNodes position seen raws).nodes.map (·.id)).Nodup := by
  fun_induction scanNodes position seen raws with
  | case1 => simp
  | case2 _ _ _ _ _ _ ih => exact ih
  | case3 _ _ _ _ _ _ _ _ ih => exact ih
  | case4 _ _ _ _ _ _ _ _ _ _ ih => exact ih
  | case5 position _ _ rest id _ fresh _ m hm ih =>
    refine List.nodup_cons.2 ⟨fun hmem => ?_, ih⟩
    obtain ⟨m', hm', hid⟩ := List.mem_map.1 hmem
    have hsame : m'.id = id := hid.trans (id_eq_of_node hm)
    exact id_notMem_of_mem_scanNodes _ _ _ hm' (hsame ▸ List.mem_cons_self)

/-! ## Reading edges -/

variable {ids seen : List String}

theorem lt_of_idxOf? {id : String} {i : Nat} (h : ids.idxOf? id = some i) : i < ids.length := by
  obtain ⟨hi, -⟩ := List.findIdx?_eq_some_iff_getElem.1 h
  exact hi

/-- Both ends of an edge are positions of nodes. -/
theorem ends_of_edge {position : Nat} {raw : Value} {e : Edge}
    (h : edge ids seen position raw = .ok (some e)) :
    e.source < ids.length ∧ e.target < ids.length := by
  unfold edge at h
  split at h
  · dsimp only at h
    split at h
    · split at h <;> cases h
    · rename_i s hs
      split at h
      · split at h <;> cases h
      · rename_i t ht
        split at h
        · cases h
          exact ⟨lt_of_idxOf? hs, lt_of_idxOf? ht⟩
        · cases h
  · cases h

theorem ends_of_mem_scanEdges {e : Edge} (ids seen : List String) (position : Nat) (raws : List Value)
    (h : e ∈ (scanEdges ids seen position raws).2) :
    e.source < ids.length ∧ e.target < ids.length := by
  induction raws generalizing position with
  | nil => simp [scanEdges] at h
  | cons raw rest ih =>
    simp only [scanEdges] at h
    split at h
    · exact ih _ h
    · rename_i e' he'
      rcases List.mem_cons.1 h with rfl | h
      · exact ends_of_edge he'
      · exact ih _ h
    · exact ih _ h

end Reader

theorem wellFormed_of_ofValue {raw : Value} {g : Graph} (h : ofValue raw = .ok g) :
    g.WellFormed := by
  unfold ofValue at h
  split at h
  · split at h
    · rename_i rawNodes rawEdges _ _
      dsimp only at h
      split at h
      · cases h
        have hends := fun e => Reader.ends_of_mem_scanEdges (e := e)
          ((Reader.scanNodes 0 [] rawNodes).nodes.map (·.id)) (Reader.scanNodes 0 [] rawNodes).seen
          0 rawEdges
        simp only [List.length_map] at hends
        exact ⟨Reader.nodup_scanNodes _ _ _, fun e he => (hends e he).1, fun e he => (hends e he).2⟩
      · cases h
    · cases h
  · cases h

/-! ## Ids and positions -/

variable {g : Graph} {i j : Nat} {n : Node}

theorem lt_size_of_getElem? (h : g.nodes[i]? = some n) : i < g.size :=
  (List.getElem?_eq_some_iff.1 h).1

theorem exists_getElem?_of_lt (h : i < g.size) : ∃ n, g.nodes[i]? = some n :=
  ⟨_, List.getElem?_eq_getElem h⟩

theorem exists_getElem?_of_mem (h : n ∈ g.nodes) : ∃ i : Nat, g.nodes[i]? = some n :=
  List.mem_iff_getElem?.1 h

/-- Where the ids are distinct, the position of a node is found by its id. -/
theorem indexOf?_of_distinct (distinct : (g.nodes.map (·.id)).Nodup) (h : g.nodes[i]? = some n) :
    g.indexOf? n.id = some i := by
  obtain ⟨hi, rfl⟩ := List.getElem?_eq_some_iff.1 h
  refine List.findIdx?_eq_some_iff_getElem.2 ⟨hi, by simp, fun j hj => ?_⟩
  simpa using List.pairwise_iff_getElem.1 (List.pairwise_map.1 distinct) j i (by omega) hi hj

namespace WellFormed

variable (wf : g.WellFormed)

include wf

theorem indexOf?_eq (h : g.nodes[i]? = some n) : g.indexOf? n.id = some i :=
  indexOf?_of_distinct wf.distinct h

theorem node?_eq (h : n ∈ g.nodes) : g.node? n.id = some n := by
  cases hfound : g.node? n.id with
  | none => simpa using List.find?_eq_none.1 hfound n h
  | some n' =>
    have hid : n'.id = n.id := by simpa using List.find?_some hfound
    rw [List.inj_on_of_nodup_map wf.distinct (List.mem_of_find?_eq_some hfound) h hid]

theorem outgoing_eq (h : g.nodes[i]? = some n) : g.outgoing n.id = g.outgoingAt i := by
  rw [outgoing, wf.indexOf?_eq h]

theorem incoming_eq (h : g.nodes[i]? = some n) : g.incoming n.id = g.incomingAt i := by
  rw [incoming, wf.indexOf?_eq h]

end WellFormed

/-! ## Edges by where they end -/

/-- Edges that are told apart by a position below a bound are all there, each once. -/
theorem perm_flatMap_filter (position : Edge → Nat) (edges : List Edge) (bound : Nat) :
    ((List.range bound).flatMap fun i => edges.filter fun e => position e == i).Perm
      (edges.filter fun e => decide (position e < bound)) := by
  induction bound with
  | zero => simp
  | succ bound ih =>
    have below : (edges.filter fun e => decide (position e < bound + 1)).filter
        (fun e => decide (position e < bound)) = edges.filter fun e => decide (position e < bound) := by
      rw [List.filter_filter]
      exact List.filter_congr fun e _ => by rw [Bool.eq_iff_iff]; simp; omega
    have here : (edges.filter fun e => decide (position e < bound + 1)).filter
        (fun e => !decide (position e < bound)) = edges.filter fun e => position e == bound := by
      rw [List.filter_filter]
      exact List.filter_congr fun e _ => by rw [Bool.eq_iff_iff]; simp; omega
    have split := List.filter_append_perm (fun e => decide (position e < bound))
      (edges.filter fun e => decide (position e < bound + 1))
    rw [below, here] at split
    rw [List.range_succ, List.flatMap_append, List.flatMap_singleton]
    exact (ih.append_right _).trans split

namespace WellFormed

variable (wf : g.WellFormed)

include wf

/-- Every edge leaves one node. -/
theorem perm_flatMap_outgoingAt : ((List.range g.size).flatMap g.outgoingAt).Perm g.edges := by
  have all : (g.edges.filter fun e => decide (e.source < g.size)) = g.edges :=
    List.filter_eq_self.2 fun e he => decide_eq_true (wf.source_lt e he)
  exact all ▸ perm_flatMap_filter Edge.source g.edges g.size

/-- Every edge enters one node. -/
theorem perm_flatMap_incomingAt : ((List.range g.size).flatMap g.incomingAt).Perm g.edges := by
  have all : (g.edges.filter fun e => decide (e.target < g.size)) = g.edges :=
    List.filter_eq_self.2 fun e he => decide_eq_true (wf.target_lt e he)
  exact all ▸ perm_flatMap_filter Edge.target g.edges g.size

end WellFormed

end Graph

end CrmAutomation
