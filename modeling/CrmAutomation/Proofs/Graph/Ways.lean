import CrmAutomation.Condition
import CrmAutomation.Proofs.Graph.Publishable
import Mathlib.Data.Finset.Card
import Mathlib.Data.Finset.Range

/-!
# Ways through a graph

A run goes from a node to another along a handle, and knows them by their ids. `Graph.Next` is this
relation. It follows the edges (`joins_of_next`), so on a graph that may be published no way leads
back to where it began, and there are ranks below the number of nodes that fall along every way
(`Publishable.exists_ranks`). Two more things are certain on such a graph: either branch of a
condition leads to a node (`Publishable.forks`), and its operator is known
(`Comparison.Complete.holds_ne_unknownOperator`).
-/

namespace CrmAutomation

open Relation (TransGen)

namespace Graph

/-- From a node the graph leads to another one, on some handle. -/
def Next (g : Graph) (id next : String) : Prop := ∃ handle, g.nextNodeId? id handle = some next

/-- No way leads from a node back to it. -/
def Acyclic (g : Graph) : Prop := ∀ id, ¬TransGen g.Next id id

/-- A node of the graph has the id. -/
def HasNode (g : Graph) (id : String) : Prop := ∃ n ∈ g.nodes, n.id = id

/-- Ranks of the nodes that are less than their number and fall along every way. -/
structure Ranks (g : Graph) (rank : String → Nat) : Prop where
  lt_size : ∀ id, g.HasNode id → rank id < g.size
  falls : ∀ id next, g.Next id next → rank next < rank id

/-- Either branch of a condition leads somewhere. -/
def Forks (g : Graph) : Prop :=
  ∀ n ∈ g.nodes, n.type = .condition → ∀ result, ∃ next,
    g.nextNodeId? n.id (.ofResult result) = some next

variable {g : Graph} {n : Node} {id next : String}

/-! ## Nodes -/

theorem exists_node?_of_hasNode (h : g.HasNode id) : ∃ n, g.node? id = some n := by
  obtain ⟨n, hn, rfl⟩ := h
  exact Option.isSome_iff_exists.1 (List.find?_isSome.2 ⟨n, hn, by simp⟩)

theorem node?_spec (h : g.node? id = some n) : n ∈ g.nodes ∧ n.id = id :=
  ⟨List.mem_of_find?_eq_some h, by simpa using List.find?_some h⟩

/-! ## Edges -/

/-- Where the graph leads is the target of an edge. -/
theorem exists_edge_of_next (h : g.Next id next) :
    ∃ e ∈ g.edges, g.indexOf? id = some e.source ∧
      ∃ n, g.nodes[e.target]? = some n ∧ n.id = next := by
  obtain ⟨handle, hnext⟩ := h
  simp only [nextNodeId?] at hnext
  split at hnext
  · rename_i e he
    have hmem := List.mem_of_find?_eq_some he
    obtain ⟨n, hn, rfl⟩ := Option.map_eq_some_iff.1 hnext
    simp only [outgoing] at hmem
    split at hmem
    · rename_i i hi
      obtain ⟨hedge, hsource⟩ := List.mem_filter.1 hmem
      exact ⟨e, hedge, by rw [hi, beq_iff_eq.1 hsource], n, hn, rfl⟩
    · cases hmem
  · cases hnext

theorem hasNode_of_next (h : g.Next id next) : g.HasNode next := by
  obtain ⟨e, -, -, n, hn, hid⟩ := exists_edge_of_next h
  exact ⟨n, List.mem_of_getElem? hn, hid⟩

/-- Where the ids are distinct, a way from node to node is one along an edge. -/
theorem joins_of_next (distinct : (g.nodes.map (·.id)).Nodup) (h : g.Next id next) :
    ∃ i j, g.indexOf? id = some i ∧ g.indexOf? next = some j ∧ g.Joins i j := by
  obtain ⟨e, he, hsource, n, hn, rfl⟩ := exists_edge_of_next h
  exact ⟨_, _, hsource, indexOf?_of_distinct distinct hn, e, he, rfl, rfl⟩

/-- What rises along every edge rises along every way, so no way is a circle. -/
theorem acyclic_of_rank (distinct : (g.nodes.map (·.id)).Nodup) (rank : Nat → Nat)
    (hrank : ∀ i j, g.Joins i j → rank i < rank j) : g.Acyclic := by
  have hrise : ∀ a b, TransGen g.Next a b →
      ∃ i j, g.indexOf? a = some i ∧ g.indexOf? b = some j ∧ rank i < rank j := by
    intro a b hab
    induction hab with
    | single h =>
      obtain ⟨i, j, hi, hj, hjoins⟩ := joins_of_next distinct h
      exact ⟨i, j, hi, hj, hrank i j hjoins⟩
    | tail _ h ih =>
      obtain ⟨i, j, hi, hj, hlt⟩ := ih
      obtain ⟨j', k, hj', hk, hjoins⟩ := joins_of_next distinct h
      obtain rfl : j = j' := Option.some.inj (hj.symm.trans hj')
      exact ⟨i, k, hi, hk, Nat.lt_trans hlt (hrank j k hjoins)⟩
  intro id hcircle
  obtain ⟨i, j, hi, hj, hlt⟩ := hrise id id hcircle
  obtain rfl : i = j := Option.some.inj (hi.symm.trans hj)
  exact Nat.lt_irrefl _ hlt

/-- A graph of which all edges lead from a node to one later in its list has no circles. -/
theorem acyclic_of_forward (distinct : (g.nodes.map (·.id)).Nodup)
    (forward : ∀ e ∈ g.edges, e.source < e.target) : g.Acyclic := by
  refine acyclic_of_rank distinct id ?_
  rintro _ _ ⟨e, he, rfl, rfl⟩
  exact forward e he

/-! ## Ways through a graph that may be published -/

open Classical in
/-- The positions that a way from `i` leads to are fewer than the nodes, and fewer after an edge. -/
theorem WellFormed.exists_rank (wf : g.WellFormed) (acyclic : ∀ i, ¬TransGen g.Joins i i) :
    ∃ rank : Nat → Nat, (∀ i < g.size, rank i < g.size) ∧
      ∀ i j, g.Joins i j → rank j < rank i := by
  let ahead := fun i => (Finset.range g.size).filter fun j => TransGen g.Joins i j
  refine ⟨fun i => (ahead i).card, fun i hi => ?_, fun i j hjoins => ?_⟩
  · have hlt : (ahead i).card < (Finset.range g.size).card := by
      refine Finset.card_lt_card (Finset.filter_ssubset.2 ⟨i, Finset.mem_range.2 hi, acyclic i⟩)
    rwa [Finset.card_range] at hlt
  · have hj : j ∈ ahead i :=
      Finset.mem_filter.2 ⟨Finset.mem_range.2 (wf.lt_of_joins hjoins).2, .single hjoins⟩
    refine Finset.card_lt_card (Finset.ssubset_iff_subset_ne.2 ⟨fun k hk => ?_, fun heq => ?_⟩)
    · obtain ⟨hk, hjk⟩ := Finset.mem_filter.1 hk
      exact Finset.mem_filter.2 ⟨hk, .head hjoins hjk⟩
    · rw [← heq] at hj
      exact acyclic j (Finset.mem_filter.1 hj).2

namespace Publishable

variable (hg : g.Publishable) (wf : g.WellFormed)

include hg wf

/-- There are ranks on the graph. -/
theorem exists_ranks : ∃ rank, g.Ranks rank := by
  obtain ⟨rank, hbound, hfall⟩ := wf.exists_rank hg.acyclic
  refine ⟨fun id => ((g.indexOf? id).map rank).getD 0, ?_, fun id next hnext => ?_⟩
  · rintro _ ⟨n, hn, rfl⟩
    obtain ⟨i, hi⟩ := exists_getElem?_of_mem hn
    simpa [wf.indexOf?_eq hi] using hbound i (lt_size_of_getElem? hi)
  · obtain ⟨i, j, hi, hj, hjoins⟩ := joins_of_next wf.distinct hnext
    simpa [hi, hj] using hfall i j hjoins

/-- Either branch of a condition leads to a node. -/
theorem forks : g.Forks := by
  intro n hn hcondition result
  obtain ⟨i, hi⟩ := exists_getElem?_of_mem hn
  have hhandle : Handle.ofResult result ∈ (g.outgoingAt i).map (·.handle) := by
    rw [(hg.conditions i n hi hcondition).mem_iff]
    cases result <;> decide
  obtain ⟨e, he, hresult⟩ := List.mem_map.1 hhandle
  have hfound : ((g.outgoingAt i).find? fun e => e.handle == .ofResult result).isSome :=
    List.find?_isSome.2 ⟨e, he, by simpa using hresult⟩
  obtain ⟨e', he'⟩ := Option.isSome_iff_exists.1 hfound
  have hedge : e' ∈ g.edges := (List.mem_filter.1 (List.mem_of_find?_eq_some he')).1
  obtain ⟨next, hnext⟩ := exists_getElem?_of_lt (wf.target_lt e' hedge)
  exact ⟨next.id, by simp only [nextNodeId?, wf.outgoing_eq hi, he', hnext, Option.map_some]⟩

end Publishable

end Graph

/-! ## Operators -/

namespace Comparison

variable {c : Comparison}

theorem number_ne_unknownOperator {role field operator : String} {v : Value} :
    number role field v ≠ .error (.unknownOperator operator) := by
  unfold number
  split
  · simp
  · split
    · simp
    · split <;> simp

theorem compareValue_ne_unknownOperator {o : Operator} {actual : Value} {operator : String} :
    c.compareValue o actual ≠ .error (.unknownOperator operator) := by
  have hnumbers : ∀ less : Decimal → Decimal → Bool,
      (do
        let left ← number "Subject value" c.field actual
        let right ← number "Condition value" c.field c.value
        return less left right) ≠ Except.error (.unknownOperator operator) := by
    intro less
    cases hleft : number "Subject value" c.field actual with
    | error p =>
      intro h
      obtain rfl : p = .unknownOperator operator := Except.error.inj h
      exact number_ne_unknownOperator hleft
    | ok left =>
      cases hright : number "Condition value" c.field c.value with
      | error p =>
        intro h
        obtain rfl : p = .unknownOperator operator := Except.error.inj h
        exact number_ne_unknownOperator hright
      | ok right => exact fun h => by cases h
  cases o with
  | greaterThan => exact hnumbers fun left right => Decimal.less right left
  | lessThan => exact hnumbers Decimal.less
  | equals | notEquals | contains | isEmpty | isNotEmpty => exact fun h => by cases h

/-- A comparison that is complete has an operator that is known. -/
theorem Complete.holds_ne_unknownOperator (h : c.Complete) (contact : Contact)
    (operator : String) : c.holds contact ≠ .error (.unknownOperator operator) := by
  obtain ⟨-, o, htext, -⟩ := h
  unfold holds
  rw [Operator.ofText?_eq_some_iff.2 htext]
  dsimp only
  split
  · exact compareValue_ne_unknownOperator
  all_goals simp

end Comparison

end CrmAutomation
