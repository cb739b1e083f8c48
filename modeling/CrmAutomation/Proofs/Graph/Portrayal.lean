import CrmAutomation.Proofs.Graph.Documents
import CrmAutomation.Proofs.Graph.Shape

/-!
# What is read from a document

The values that describe a graph (`Graph.IsDocument`) are exactly those that are read, and every other
value has a problem. A graph that was read portrays its document: it has a node for each node entry
and an edge for each edge entry, in order (`Graph.Portrays`). What is looked up in it by the id of a
node is what there is in the list of edges (`Graph.Indexed`): each edge is among the edges that leave
one node, and among those that enter one.

Two things are refused that one might take for graphs: a duration that is written with too many
digits, and the number zero for the end of an edge, as it stands for an end that is missing.
-/

namespace CrmAutomation

namespace Graph

/-- A JSON value that describes a graph. -/
structure IsDocument (raw : Value) : Prop where
  object : ∃ ms, raw = .obj ms
  nodes : (raw.field "nodes").IsListOrFalsy
  edges : (raw.field "edges").IsListOrFalsy
  nodeEntries : ∀ entry ∈ (raw.field "nodes").entries, IsNodeEntry entry
  distinct : ((raw.field "nodes").entries.map idText).Nodup
  edgeEntries : ∀ entry ∈ (raw.field "edges").entries,
    IsEdgeEntry ((raw.field "nodes").entries.map idText) entry

/-- A graph has the nodes and edges that the entries of a document describe, in order. -/
structure Portrays (g : Graph) (raw : Value) : Prop where
  nodes : List.Forall₂ IsNodeOf (raw.field "nodes").entries g.nodes
  edges : List.Forall₂ (IsEdgeOf g.nodes) (raw.field "edges").entries g.edges

/-- The edges of a graph are found by the ids of the nodes at their ends. -/
structure Indexed (g : Graph) : Prop where
  outgoing : ∀ (i : Nat) n, g.nodes[i]? = some n →
    g.outgoing n.id = g.edges.filter fun e => e.source == i
  incoming : ∀ (i : Nat) n, g.nodes[i]? = some n →
    g.incoming n.id = g.edges.filter fun e => e.target == i
  /-- Each edge leaves one node. -/
  leaves : (g.nodes.flatMap fun n => g.outgoing n.id).Perm g.edges
  /-- Each edge enters one node. -/
  enters : (g.nodes.flatMap fun n => g.incoming n.id).Perm g.edges
  /-- The first edge that leaves on a handle leads to the next node. -/
  next : ∀ n ∈ g.nodes, ∀ handle e, (g.outgoing n.id).find? (fun e => e.handle == handle) = some e →
    ∃ target, g.nodes[e.target]? = some target ∧ g.nextNodeId? n.id handle = some target.id
  /-- Where no edge leaves on a handle there is no next node. -/
  last : ∀ n ∈ g.nodes, ∀ handle, (g.outgoing n.id).find? (fun e => e.handle == handle) = none →
    g.nextNodeId? n.id handle = none

variable {g : Graph} {raw : Value}

/-! ## Looking up edges -/

theorem flatMap_nodes_eq {edgesOf : String → List Edge} {edgesAt : Nat → List Edge}
    (h : ∀ (i : Nat) n, g.nodes[i]? = some n → edgesOf n.id = edgesAt i) :
    (g.nodes.flatMap fun n => edgesOf n.id) = (List.range g.size).flatMap edgesAt := by
  have hlists : g.nodes.map (fun n => edgesOf n.id) = (List.range g.size).map edgesAt := by
    refine List.ext_getElem (by simp [size]) fun i hi _ => ?_
    rw [List.length_map] at hi
    simpa using h i g.nodes[i] (List.getElem?_eq_getElem hi)
  rw [List.flatMap_def, List.flatMap_def, hlists]

theorem WellFormed.indexed (wf : g.WellFormed) : g.Indexed where
  outgoing _ _ hn := wf.outgoing_eq hn
  incoming _ _ hn := wf.incoming_eq hn
  leaves := by
    rw [flatMap_nodes_eq fun _ _ hn => wf.outgoing_eq hn]
    exact wf.perm_flatMap_outgoingAt
  enters := by
    rw [flatMap_nodes_eq fun _ _ hn => wf.incoming_eq hn]
    exact wf.perm_flatMap_incomingAt
  next n hn handle e he := by
    obtain ⟨i, hi⟩ := exists_getElem?_of_mem hn
    have hmem := List.mem_of_find?_eq_some he
    rw [wf.outgoing_eq hi] at hmem
    obtain ⟨target, htarget⟩ := exists_getElem?_of_lt (wf.target_lt e (List.mem_filter.1 hmem).1)
    exact ⟨target, htarget, by simp only [nextNodeId?, he, htarget, Option.map_some]⟩
  last n _ handle hnone := by simp only [nextNodeId?, hnone]

/-! ## Reading documents -/

theorem ids_of_isNodeOf {entries : List Value} {nodes : List Node}
    (h : List.Forall₂ IsNodeOf entries nodes) : nodes.map (·.id) = entries.map idText := by
  induction h with
  | nil => rfl
  | cons hnode _ ih => rw [List.map_cons, List.map_cons, hnode.id, ih]

/-- What is read from the entries of a document. -/
theorem scan_spec {nodeEntries edgeEntries : List Value}
    (h : (Reader.scanNodes 0 [] nodeEntries).problems = []) :
    List.Forall₂ IsNodeOf nodeEntries (Reader.scanNodes 0 [] nodeEntries).nodes ∧
    ((Reader.scanEdges ((Reader.scanNodes 0 [] nodeEntries).nodes.map (·.id))
        (Reader.scanNodes 0 [] nodeEntries).seen 0 edgeEntries).1 = [] ↔
      ∀ entry ∈ edgeEntries, IsEdgeEntry (nodeEntries.map idText) entry) ∧
    ((Reader.scanEdges ((Reader.scanNodes 0 [] nodeEntries).nodes.map (·.id))
        (Reader.scanNodes 0 [] nodeEntries).seen 0 edgeEntries).1 = [] →
      List.Forall₂ (IsEdgeOf (Reader.scanNodes 0 [] nodeEntries).nodes) edgeEntries
        (Reader.scanEdges ((Reader.scanNodes 0 [] nodeEntries).nodes.map (·.id))
          (Reader.scanNodes 0 [] nodeEntries).seen 0 edgeEntries).2) := by
  obtain ⟨hnodes, hmet⟩ := Reader.nodes_scanNodes 0 [] nodeEntries h
  have hids := ids_of_isNodeOf hnodes
  have hseen : ∀ id ∈ (Reader.scanNodes 0 [] nodeEntries).seen,
      id ∈ (Reader.scanNodes 0 [] nodeEntries).nodes.map (·.id) := fun id hid => by
    simpa using hmet id hid
  have hempty : "" ∉ (Reader.scanNodes 0 [] nodeEntries).nodes.map (·.id) := by
    rw [hids]
    intro hmem
    obtain ⟨entry, hentry, hid⟩ := List.mem_map.1 hmem
    have hentries := ((Reader.problems_scanNodes_eq_nil_iff 0 [] nodeEntries).1 h).1
    exact Value.display_ne_empty (hentries entry hentry).id hid
  refine ⟨hnodes, ?_, Reader.edges_scanEdges hempty hseen 0 edgeEntries⟩
  rw [← hids]
  exact Reader.problems_scanEdges_eq_nil_iff hempty hseen 0 edgeEntries

/-- A graph is what is read from the entries of an object where nothing is wrong with them. -/
theorem ofValue_eq_ok_iff :
    ofValue raw = .ok g ↔ (∃ ms, raw = .obj ms) ∧ (raw.field "nodes").IsListOrFalsy ∧
      (raw.field "edges").IsListOrFalsy ∧
      (Reader.scanNodes 0 [] (raw.field "nodes").entries).problems = [] ∧
      (Reader.scanEdges ((Reader.scanNodes 0 [] (raw.field "nodes").entries).nodes.map (·.id))
        (Reader.scanNodes 0 [] (raw.field "nodes").entries).seen 0
        (raw.field "edges").entries).1 = [] ∧
      g = ⟨(Reader.scanNodes 0 [] (raw.field "nodes").entries).nodes,
        (Reader.scanEdges ((Reader.scanNodes 0 [] (raw.field "nodes").entries).nodes.map (·.id))
          (Reader.scanNodes 0 [] (raw.field "nodes").entries).seen 0
          (raw.field "edges").entries).2⟩ := by
  constructor
  · intro h
    unfold ofValue at h
    split at h
    · rename_i ms
      split at h
      · rename_i hnodes hedges
        obtain ⟨nodesList, rfl⟩ := Value.orElse_list_eq_iff.1 hnodes
        obtain ⟨edgesList, rfl⟩ := Value.orElse_list_eq_iff.1 hedges
        dsimp only at h
        split at h
        · rename_i hnone
          obtain ⟨hnodes, hedges⟩ := List.append_eq_nil_iff.1 hnone
          exact ⟨⟨ms, rfl⟩, nodesList, edgesList, hnodes, hedges, (Except.ok.inj h).symm⟩
        · cases h
      · cases h
    · cases h
  · rintro ⟨⟨ms, rfl⟩, nodesList, edgesList, hnodes, hedges, rfl⟩
    have hnodesList := Value.orElse_list_eq_iff.2 ⟨nodesList, rfl⟩
    have hedgesList := Value.orElse_list_eq_iff.2 ⟨edgesList, rfl⟩
    simp only [Value.field] at hnodesList hedgesList hnodes hedges ⊢
    simp only [ofValue, hnodesList, hedgesList, hnodes, hedges, List.append_nil]

theorem ofValue_spec (h : ofValue raw = .ok g) : IsDocument raw ∧ g.Portrays raw := by
  obtain ⟨hobject, nodesList, edgesList, hnodes, hedges, rfl⟩ := ofValue_eq_ok_iff.1 h
  obtain ⟨hentries, hdistinct, -⟩ := (Reader.problems_scanNodes_eq_nil_iff 0 [] _).1 hnodes
  obtain ⟨hportrayed, hproblems, hdrawn⟩ := scan_spec hnodes
  exact ⟨⟨hobject, nodesList, edgesList, hentries, hdistinct, hproblems.1 hedges⟩,
    hportrayed, hdrawn hedges⟩

theorem exists_ofValue_of_isDocument (h : IsDocument raw) : ∃ g, ofValue raw = .ok g := by
  have hnodes := (Reader.problems_scanNodes_eq_nil_iff 0 [] _).2
    ⟨h.nodeEntries, h.distinct, fun _ _ => List.not_mem_nil⟩
  obtain ⟨-, hproblems, -⟩ := scan_spec hnodes
  exact ⟨_, ofValue_eq_ok_iff.2
    ⟨h.object, h.nodes, h.edges, hnodes, hproblems.2 h.edgeEntries, rfl⟩⟩

/-- A value is read if it describes a graph, and has a problem if it does not. What is read has a
node or an edge for each entry, in order, and they are found by the ids of the nodes. -/
theorem ofValue_reads_documents (raw : Value) :
    ((∃ g, ofValue raw = .ok g) ↔ IsDocument raw) ∧
    (¬IsDocument raw → ∃ problems, ofValue raw = .error problems ∧ problems ≠ []) ∧
    ∀ g, ofValue raw = .ok g → g.Portrays raw ∧ g.Indexed := by
  have hread : (∃ g, ofValue raw = .ok g) ↔ IsDocument raw :=
    ⟨fun ⟨_, h⟩ => (ofValue_spec h).1, exists_ofValue_of_isDocument⟩
  refine ⟨hread, fun hother => ?_,
    fun g h => ⟨(ofValue_spec h).2, (wellFormed_of_ofValue h).indexed⟩⟩
  cases h : ofValue raw with
  | ok g => exact absurd (hread.1 ⟨g, h⟩) hother
  | error problems =>
    refine ⟨problems, rfl, ?_⟩
    rintro rfl
    exact ofValue_ne_error_nil raw h

/-- A number that is written with as many ones. -/
def ones (count : Nat) : String := String.ofList (List.replicate count '1')

/-- A node that waits for the minutes that a text writes. -/
def waiting (minutes : String) : Value :=
  .obj [("id", .str "d1"), ("type", .str "delay"),
    ("data", .obj [("config", .obj [("duration_minutes", .str minutes)])])]

/-- A node with the id `0` and an edge that leads from somewhere to it. -/
def fedFrom (source : Value) : Value :=
  .obj [("nodes", .list [.obj [("id", .str "0"), ("type", .str "trigger")]]),
    ("edges", .list [.obj [("source", source), ("target", .str "0")]])]

theorem spells_ones (n : Nat) : Number.Spells (ones (n + 1)) false (List.replicate (n + 1) 1) := by
  have hrun : Number.DigitRun (List.replicate (n + 1) '1') (List.replicate (n + 1) 1) := by
    induction n with
    | zero => exact .single (by decide)
    | succ n ih => exact .next (by decide) ih
  exact ⟨[], [], _, [], by simp [ones], by simp, by simp, .none, hrun⟩

theorem node_waiting {minutes : String} (hwritten : minutes ≠ "")
    (hnone : Number.readInteger? minutes = none) :
    Reader.node "d1" (waiting minutes) = .error (.notAnInteger "d1") := by
  have hsetting : Text.configValue? [("duration_minutes", .str minutes)] "duration_minutes" =
      some (.str minutes) := rfl
  have hconfig : Reader.config .delay "d1" [("config", .obj [("duration_minutes", .str minutes)])] =
      .error (.notAnInteger "d1") := by
    have hduration : Reader.duration "d1" [("duration_minutes", .str minutes)] =
        .error (.notAnInteger "d1") := by
      simp only [Reader.duration, hsetting, if_neg hwritten, hnone]
    change (Reader.duration "d1" [("duration_minutes", .str minutes)] >>= fun minutes =>
      pure (NodeConfig.delay minutes)) = _
    rw [hduration]
    rfl
  have htype : Reader.nodeType? ((waiting minutes).field "type") = some .delay := rfl
  have hdata : ((waiting minutes).field "data").orElse (.obj []) =
      .obj [("config", .obj [("duration_minutes", .str minutes)])] := rfl
  simp only [Reader.node, htype, hdata, hconfig]
  rfl

/-- A number of minutes that cannot be read is the problem of its node. -/
theorem ofValue_waiting {minutes : String} (hwritten : minutes ≠ "")
    (hnone : Number.readInteger? minutes = none) :
    ofValue (.obj [("nodes", .list [waiting minutes])]) = .error [.notAnInteger "d1"] := by
  have hid : Reader.nodeId? (waiting minutes) = some "d1" := rfl
  have hscan : Reader.scanNodes 0 [] [waiting minutes] = ⟨[.notAnInteger "d1"], ["d1"], []⟩ := by
    simp only [Reader.scanNodes, hid, node_waiting hwritten hnone, if_neg List.not_mem_nil]
  have hnodes : (Members.getD "nodes" [("nodes", .list [waiting minutes])]).orElse (.list []) =
      .list [waiting minutes] := rfl
  have hedges : (Members.getD "edges" [("nodes", .list [waiting minutes])]).orElse (.list []) =
      .list [] := rfl
  simp only [ofValue, hnodes, hedges, hscan]
  rfl

/-- A duration of too many digits and an edge from the number zero are refused, where the text of
zero is not. -/
theorem ofValue_refuses_ones_and_zero :
    (Number.Spells (ones 4301) false (List.replicate 4301 1) ∧
      ofValue (.obj [("nodes", .list [waiting (ones 4301)])]) = .error [.notAnInteger "d1"]) ∧
    (Value.int 0).display = "0" ∧
    ofValue (fedFrom (.str "0")) = .ok ⟨[⟨"0", .trigger "" none none, ""⟩], [⟨0, 0, .default⟩]⟩ ∧
    ofValue (fedFrom (.int 0)) = .error [.unknownSource 0 ""] := by
  have hspells := spells_ones 4300
  have hnone := hspells.readInteger?_eq_none (by rw [List.length_replicate]; decide)
  have hwritten : ones 4301 ≠ "" := fun h => by
    have hlength := congrArg String.length h
    rw [ones, String.length_ofList, List.length_replicate] at hlength
    exact absurd hlength (by decide)
  exact ⟨⟨hspells, ofValue_waiting hwritten hnone⟩, by decide, rfl, rfl⟩

end Graph

end CrmAutomation
