import CrmAutomation.Proofs.Graph.Cycles
import CrmAutomation.Proofs.Graph.Traversal

/-!
# Circles and the defects that report them

A circle is a way along the edges, with at least one edge, from a position back to it
(`Graph.Way`). Each cycle defect of a graph names the ends of an edge that lies on a circle, and on
every circle there is an edge that a cycle defect names (`Graph.IsReported`). So nothing is left of
any circle in a graph without the edges that are reported (`Graph.spared`).

That an edge lies on a circle is shown with one that meets no node twice: a way between two positions
can be cut down to one whose edges begin at different nodes (`exists_way`).
-/

namespace CrmAutomation

open Relation (ReflTransGen TransGen)

namespace Graph

/-- Edges of the graph that lead one after the other from a position to another. -/
inductive Way (g : Graph) : Nat → List Edge → Nat → Prop where
  | nil (i : Nat) : Way g i [] i
  | cons {e : Edge} {way : List Edge} {j : Nat} (edge : e ∈ g.edges) (rest : Way g e.target way j) :
    Way g e.source (e :: way) j

/-- A cycle defect names the ends of the edge. -/
def IsReported (g : Graph) (e : Edge) : Prop :=
  ∃ source target, g.nodes[e.source]? = some source ∧ g.nodes[e.target]? = some target ∧
    .cycle source.id target.id ∈ g.cycleDefects

/-- The graph without the edges that cycle defects name. -/
def spared (g : Graph) : Graph :=
  { g with edges := g.edges.filter fun e =>
      .cycle (g.idAt e.source) (g.idAt e.target) ∉ g.cycleDefects }

variable {g : Graph} {i j k : Nat} {e : Edge} {way circle : List Edge}

/-! ## Ways -/

theorem Way.mem_edges (h : g.Way i way j) (he : e ∈ way) : e ∈ g.edges := by
  induction h with
  | nil => cases he
  | cons edge _ ih =>
    rcases List.mem_cons.1 he with rfl | he
    · exact edge
    · exact ih he

/-- A way whose edges another graph has too is a way of this one. -/
theorem Way.transfer {g' : Graph} (h : g.Way i way j) (hedges : ∀ e ∈ way, e ∈ g'.edges) :
    g'.Way i way j := by
  induction h with
  | nil => exact .nil _
  | cons _ _ ih =>
    obtain ⟨hfirst, hrest⟩ := List.forall_mem_cons.1 hedges
    exact .cons hfirst (ih hrest)

theorem Way.reflTransGen (h : g.Way i way j) : ReflTransGen g.Joins i j := by
  induction h with
  | nil => exact .refl
  | cons edge _ ih => exact .head ⟨_, edge, rfl, rfl⟩ ih

theorem Way.transGen (h : g.Way i way j) (hne : way ≠ []) : TransGen g.Joins i j := by
  cases h with
  | nil => exact absurd rfl hne
  | cons edge rest => exact .head' ⟨_, edge, rfl, rfl⟩ rest.reflTransGen

/-- From a position that a way meets on, it is a way too. -/
theorem Way.exists_suffix (h : g.Way i way j) (hk : k ∈ way.map (·.source)) :
    ∃ rest, rest <:+ way ∧ g.Way k rest j := by
  induction h with
  | nil => cases hk
  | cons edge rest ih =>
    rcases List.mem_cons.1 hk with rfl | hk
    · exact ⟨_, List.suffix_rfl, .cons edge rest⟩
    · obtain ⟨shorter, hsuffix, hway⟩ := ih hk
      exact ⟨shorter, hsuffix.trans (List.suffix_cons _ _), hway⟩

/-- A way between two positions that meets no position twice. -/
theorem exists_way (h : ReflTransGen g.Joins i j) :
    ∃ way, g.Way i way j ∧ (way.map (·.source)).Nodup ∧ j ∉ way.map (·.source) := by
  induction h using ReflTransGen.head_induction_on with
  | refl => exact ⟨[], .nil _, List.nodup_nil, List.not_mem_nil⟩
  | head hjoins _ ih =>
    obtain ⟨e, he, rfl, rfl⟩ := hjoins
    obtain ⟨way, hway, hdistinct, hend⟩ := ih
    by_cases hmet : e.source ∈ way.map (·.source)
    · -- the way comes through the beginning again: what was gone before is cut off
      obtain ⟨rest, hsuffix, hrest⟩ := hway.exists_suffix hmet
      have hsub := hsuffix.sublist.map Edge.source
      exact ⟨rest, hrest, hdistinct.sublist hsub, fun hj => hend (hsub.subset hj)⟩
    · by_cases hj : j = e.source
      · exact ⟨[], hj ▸ .nil _, List.nodup_nil, List.not_mem_nil⟩
      · exact ⟨e :: way, .cons he hway, List.nodup_cons.2 ⟨hmet, hdistinct⟩,
          List.not_mem_cons_of_ne_of_not_mem hj hend⟩

/-! ## Reported edges -/

theorem idAt_of_getElem? {n : Node} (h : g.nodes[i]? = some n) : g.idAt i = n.id := by
  simp [idAt, h]

theorem mem_cycleDefects_of_mem_closingEdges {pair : Nat × Nat} (h : pair ∈ g.closingEdges) :
    .cycle (g.idAt pair.1) (g.idAt pair.2) ∈ g.cycleDefects :=
  List.mem_map.2 ⟨pair, h, rfl⟩

theorem joinsWithout_of_joins_spared (h : g.spared.Joins i j) :
    g.JoinsWithout g.closingEdges i j := by
  obtain ⟨e, he, rfl, rfl⟩ := h
  obtain ⟨hedge, hspared⟩ := List.mem_filter.1 he
  refine ⟨⟨e, hedge, rfl, rfl⟩, fun hclosing => ?_⟩
  exact (of_decide_eq_true hspared) (mem_cycleDefects_of_mem_closingEdges hclosing)

namespace WellFormed

variable (wf : g.WellFormed)

include wf

theorem mem_edges_spared (he : e ∈ g.edges) (hfree : ¬g.IsReported e) : e ∈ g.spared.edges := by
  refine List.mem_filter.2 ⟨he, decide_eq_true fun hdefect => hfree ?_⟩
  obtain ⟨source, hsource⟩ := exists_getElem?_of_lt (wf.source_lt e he)
  obtain ⟨target, htarget⟩ := exists_getElem?_of_lt (wf.target_lt e he)
  rw [idAt_of_getElem? hsource, idAt_of_getElem? htarget] at hdefect
  exact ⟨source, target, hsource, htarget, hdefect⟩

/-- A cycle defect names an edge on a circle that meets no node twice. -/
theorem exists_circle_of_mem_cycleDefects {d : Defect} (h : d ∈ g.cycleDefects) :
    ∃ e ∈ g.edges, (∃ source target, g.nodes[e.source]? = some source ∧
        g.nodes[e.target]? = some target ∧ d = .cycle source.id target.id) ∧
      ∃ circle, g.Way e.source circle e.source ∧ e ∈ circle ∧
        (circle.map (·.source)).Nodup := by
  obtain ⟨pair, hpair, rfl⟩ := List.mem_map.1 h
  obtain ⟨⟨e, he, hsource, htarget⟩, hback⟩ := circle_of_mem_closingEdges hpair
  rw [← hsource, ← htarget] at hback
  obtain ⟨source, hs⟩ := exists_getElem?_of_lt (wf.source_lt e he)
  obtain ⟨target, ht⟩ := exists_getElem?_of_lt (wf.target_lt e he)
  obtain ⟨way, hway, hdistinct, hend⟩ := exists_way hback
  refine ⟨e, he, ⟨source, target, hs, ht, ?_⟩, e :: way, .cons he hway, List.mem_cons_self,
    List.nodup_cons.2 ⟨hend, hdistinct⟩⟩
  rw [← idAt_of_getElem? hs, ← idAt_of_getElem? ht, hsource, htarget]

theorem not_circle_spared (i : Nat) : ¬TransGen g.spared.Joins i i := fun hcircle =>
  wf.not_circle_without i (TransGen.mono (fun _ _ => joinsWithout_of_joins_spared) i i hcircle)

/-- On every circle there is an edge that is reported. -/
theorem exists_isReported (h : g.Way i circle i) (hne : circle ≠ []) :
    ∃ e ∈ circle, g.IsReported e := by
  by_contra hnone
  have hspared : g.spared.Way i circle i := h.transfer fun e he =>
    wf.mem_edges_spared (h.mem_edges he) fun hreported => hnone ⟨e, he, hreported⟩
  exact wf.not_circle_spared i (hspared.transGen hne)

/-- Nothing is left of a circle where the reported edges are left out. -/
theorem eq_nil_of_way_spared (h : g.spared.Way i circle i) : circle = [] := by
  by_contra hne
  exact wf.not_circle_spared i (h.transGen hne)

end WellFormed

/-- The search for circles ends after two steps for each node and one for each edge, and the edges
that it has found are reported. Every cycle defect names an edge on a circle, on every circle there
is an edge that is reported, and without the reported edges there is no circle. -/
theorem cycleDefects_cut_circles {raw : Value} {g : Graph} (h : ofValue raw = .ok g) :
    (((Traversal.start g).after g (2 * g.size + g.edges.length)).step g = none ∧
      g.cycleDefects = ((Traversal.start g).after g (2 * g.size + g.edges.length)).closing.map
        fun pair => .cycle (g.idAt pair.1) (g.idAt pair.2)) ∧
    (∀ d ∈ g.cycleDefects, ∃ e ∈ g.edges, (∃ source target, g.nodes[e.source]? = some source ∧
        g.nodes[e.target]? = some target ∧ d = .cycle source.id target.id) ∧
      ∃ circle, g.Way e.source circle e.source ∧ e ∈ circle ∧ (circle.map (·.source)).Nodup) ∧
    (∀ i circle, g.Way i circle i → circle ≠ [] → ∃ e ∈ circle, g.IsReported e) ∧
    ∀ i circle, g.spared.Way i circle i → circle = [] := by
  have wf := wellFormed_of_ofValue h
  obtain ⟨hend, hclosing⟩ := wf.traversal_halts
  refine ⟨⟨hend, by rw [hclosing]; rfl⟩, fun d hd => wf.exists_circle_of_mem_cycleDefects hd,
    fun i circle hcircle hne => wf.exists_isReported hcircle hne,
    fun i circle hcircle => wf.eq_nil_of_way_spared hcircle⟩

/-- Two nodes with two edges to and one fro, and apart from them a node with an edge to itself. -/
def tangled : Value :=
  .obj [("nodes", .list [.obj [("id", .str "t1"), ("type", .str "trigger")],
      .obj [("id", .str "d1"), ("type", .str "delay")],
      .obj [("id", .str "d2"), ("type", .str "delay")]]),
    ("edges", .list [.obj [("source", .str "t1"), ("target", .str "d1")],
      .obj [("source", .str "t1"), ("target", .str "d1")],
      .obj [("source", .str "d1"), ("target", .str "t1")],
      .obj [("source", .str "d2"), ("target", .str "d2")]])]

def tangledGraph : Graph :=
  ⟨[⟨"t1", .trigger "" none none, ""⟩, ⟨"d1", .delay 60, ""⟩, ⟨"d2", .delay 60, ""⟩],
    [⟨0, 1, .default⟩, ⟨0, 1, .default⟩, ⟨1, 0, .default⟩, ⟨2, 2, .default⟩]⟩

theorem cycleDefects_cut_circles_of_tangled :
    ofValue tangled = .ok tangledGraph ∧
    tangledGraph.cycleDefects = [.cycle "d1" "t1", .cycle "d2" "d2"] ∧
    ((Traversal.start tangledGraph).after tangledGraph 10).step tangledGraph = none ∧
    tangledGraph.spared.edges = [⟨0, 1, .default⟩, ⟨0, 1, .default⟩] ∧
    ∀ i circle, tangledGraph.spared.Way i circle i → circle = [] := by
  have parsed : ofValue tangled = .ok tangledGraph := rfl
  obtain ⟨⟨hend, -⟩, -, -, hopen⟩ := cycleDefects_cut_circles parsed
  exact ⟨parsed, by decide, hend, by decide, hopen⟩

end Graph

end CrmAutomation
