import CrmAutomation.Proofs.Graph.Cycles
import CrmAutomation.Proofs.Store.Publishing

/-!
# Graphs that may be published

`Graph.Publishable` says in terms of nodes and edges what a graph must be so that runs can follow
it, with no mention of how this is found out. The main result is that `checkStructure` finds
nothing wrong with a JSON value just when the value is such a graph (`isOk_checkStructure_iff`). Each
list of defects has its own criterion, on a graph that was read: `triggerDefects_eq_nil_iff`,
`reachabilityDefects_eq_nil_iff` (which needs that there is a single trigger, as nothing is asked
about reachability otherwise), `edgeDefects_eq_nil_iff`, `cycleDefects_eq_nil_iff` and
`configDefects_eq_nil_iff`.
-/

namespace CrmAutomation

open Relation (ReflTransGen TransGen)

/-! ## Complete settings -/

theorem text_of_findByText {α : Type} {text : α → String} {all : List α} {s : String} {a : α}
    (h : findByText text all s = some a) : text a = s := by
  simpa using List.find?_some h

theorem EventType.isSome_ofText?_iff {s : String} :
    (EventType.ofText? s).isSome ↔ ∃ t : EventType, t.text = s := by
  constructor
  · intro h
    obtain ⟨t, ht⟩ := Option.isSome_iff_exists.1 h
    exact ⟨t, text_of_findByText ht⟩
  · rintro ⟨t, rfl⟩
    rw [ofText?_text, Option.isSome_some]

theorem Operator.ofText?_eq_some_iff {s : String} {o : Operator} :
    Operator.ofText? s = some o ↔ o.text = s := by
  constructor
  · exact text_of_findByText
  · rintro rfl
    exact ofText?_text o

/-- A comparison has a field and an operator, and a value unless the operator does without one. -/
structure Comparison.Complete (c : Comparison) : Prop where
  field_ne : c.field ≠ ""
  operator : ∃ o : Operator, o.text = c.operator ∧
    (o = .isEmpty ∨ o = .isNotEmpty ∨ c.value ≠ .null ∧ c.value ≠ .str "")

/-- Settings in which nothing required is missing. -/
def NodeConfig.Complete : NodeConfig → Prop
  | .trigger eventType _ _ => ∃ t : EventType, t.text = eventType
  | .sendEmail templateId _ => templateId ≠ ""
  | .moveStage stageId => stageId ≠ ""
  | .addTag tagId => tagId ≠ ""
  | .removeTag tagId => tagId ≠ ""
  | .webhook endpointId => endpointId ≠ ""
  | .delay minutes => 1 ≤ minutes
  | .condition c => c.Complete

namespace Graph

theorem requireText_eq_nil_iff {node key text : String} :
    requireText node key text = [] ↔ text ≠ "" := by
  simp [requireText]

theorem isBlankOperand_eq_false_iff {v : Value} :
    isBlankOperand v = false ↔ v ≠ .null ∧ v ≠ .str "" := by
  cases v <;> simp [isBlankOperand]

theorem needsValue_eq_false_iff {o : Operator} :
    o.needsValue = false ↔ o = .isEmpty ∨ o = .isNotEmpty := by
  cases o <;> simp [Operator.needsValue]

theorem settingDefects_eq_nil_iff {node : String} {config : NodeConfig} :
    settingDefects node config = [] ↔ config.Complete := by
  cases config with
  | trigger eventType =>
    rw [settingDefects, NodeConfig.Complete, ← EventType.isSome_ofText?_iff]
    cases EventType.ofText? eventType <;> simp
  | sendEmail | moveStage | addTag | removeTag | webhook => exact requireText_eq_nil_iff
  | delay minutes => simp [settingDefects, NodeConfig.Complete]
  | condition c =>
    rw [settingDefects, NodeConfig.Complete, List.append_eq_nil_iff, requireText_eq_nil_iff]
    cases hoperator : Operator.ofText? c.operator with
    | none =>
      constructor
      · intro h
        simp at h
      · rintro ⟨-, o, ho, -⟩
        rw [Operator.ofText?_eq_some_iff.2 ho] at hoperator
        cases hoperator
    | some o =>
      have htext := Operator.ofText?_eq_some_iff.1 hoperator
      have hvalue : (o.needsValue && isBlankOperand c.value) = false ↔
          o = .isEmpty ∨ o = .isNotEmpty ∨ c.value ≠ .null ∧ c.value ≠ .str "" := by
        rw [Bool.and_eq_false_iff, needsValue_eq_false_iff, isBlankOperand_eq_false_iff, or_assoc]
      constructor
      · rintro ⟨hfield, hnone⟩
        exact ⟨hfield, o, htext, hvalue.1 (by simpa using hnone)⟩
      · rintro ⟨hfield, o', ho', hneeds⟩
        obtain rfl : o = o' :=
          Option.some.inj (hoperator.symm.trans (Operator.ofText?_eq_some_iff.2 ho'))
        exact ⟨hfield, by simpa using hvalue.2 hneeds⟩

/-! ## What a graph must be -/

/-- At the position stands a trigger. -/
def IsTrigger (g : Graph) (i : Nat) : Prop := ∃ n, g.nodes[i]? = some n ∧ n.type = .trigger

/-- A graph that runs can follow. -/
structure Publishable (g : Graph) : Prop where
  /-- There is exactly one trigger. -/
  trigger : ∃! i, g.IsTrigger i
  /-- No edge enters the trigger. -/
  entrance : ∀ i, g.IsTrigger i → ∀ j, ¬g.Joins j i
  /-- Every node can be reached from the trigger along the edges. -/
  reached : ∀ i, g.IsTrigger i → ∀ j < g.size, ReflTransGen g.Joins i j
  /-- No way along the edges leads back to where it began. -/
  acyclic : ∀ i, ¬TransGen g.Joins i i
  /-- Two edges leave a condition, one for either result. -/
  conditions : ∀ (i : Nat) n, g.nodes[i]? = some n → n.type = .condition →
    ((g.outgoingAt i).map (·.handle)).Perm [.whenTrue, .whenFalse]
  /-- At most one edge leaves any other node, on the default handle. -/
  others : ∀ (i : Nat) n, g.nodes[i]? = some n → n.type ≠ .condition →
    (g.outgoingAt i).length ≤ 1 ∧ ∀ e ∈ g.outgoingAt i, e.handle = .default
  /-- Nothing required is missing from the settings of a node. -/
  complete : ∀ n ∈ g.nodes, n.config.Complete

/-! ## What each check finds out -/

variable {g : Graph} {t : Node} {s : Nat}

theorem perm_handles_iff {handles : List Handle} :
    handles.Perm [.whenTrue, .whenFalse] ↔
      handles = [.whenTrue, .whenFalse] ∨ handles = [.whenFalse, .whenTrue] := by
  constructor
  · intro h
    obtain ⟨a, b, rfl⟩ := List.length_eq_two.1 h.length_eq
    cases a <;> cases b <;> revert h <;> decide
  · rintro (rfl | rfl)
    · exact .refl _
    · exact .swap _ _ _

theorem branchingDefects_eq_nil_iff {n : Node} {edges : List Edge} :
    branchingDefects n edges = [] ↔
      (n.type = .condition → (edges.map (·.handle)).Perm [.whenTrue, .whenFalse]) ∧
      (n.type ≠ .condition → edges.length ≤ 1 ∧ ∀ e ∈ edges, e.handle = .default) := by
  by_cases htype : n.type = .condition
  · have hbranches : branchingDefects n edges = [] ↔
        (edges.map (·.handle)).Perm [.whenTrue, .whenFalse] := by
      rw [branchingDefects, if_pos htype, perm_handles_iff]
      dsimp only
      split
      · rename_i hhandles
        exact iff_of_true rfl hhandles
      · rename_i hhandles
        exact iff_of_false (by simp) hhandles
    simpa [htype] using hbranches
  · simp [branchingDefects, htype]

theorem mem_triggers {n : Node} : n ∈ g.triggers ↔ n ∈ g.nodes ∧ n.type = .trigger := by
  simp [triggers]

namespace WellFormed

variable (wf : g.WellFormed)

include wf

theorem isTrigger_iff (htriggers : g.triggers = [t]) (ht : g.nodes[s]? = some t) {i : Nat} :
    g.IsTrigger i ↔ i = s := by
  constructor
  · rintro ⟨n, hn, htype⟩
    have hmem : n ∈ g.triggers := mem_triggers.2 ⟨List.mem_of_getElem? hn, htype⟩
    obtain rfl : n = t := by simpa [htriggers] using hmem
    exact Option.some.inj ((wf.indexOf?_eq hn).symm.trans (wf.indexOf?_eq ht))
  · rintro rfl
    have hmem : t ∈ g.triggers := by simp [htriggers]
    exact ⟨t, ht, (mem_triggers.1 hmem).2⟩

/-- A graph with a single trigger finds it. -/
theorem exists_triggers_eq (h : ∃! i, g.IsTrigger i) :
    ∃ t, ∃ s : Nat, g.triggers = [t] ∧ g.nodes[s]? = some t := by
  obtain ⟨s, ⟨t, ht, htype⟩, honly⟩ := h
  have hdistinct : (g.triggers.map (·.id)).Nodup :=
    wf.distinct.sublist (List.filter_sublist.map _)
  have hsame : ∀ n ∈ g.triggers, n = t := by
    intro n hn
    obtain ⟨hmem, htype⟩ := mem_triggers.1 hn
    obtain ⟨i, hi⟩ := exists_getElem?_of_mem hmem
    obtain rfl : i = s := honly i ⟨n, hi, htype⟩
    exact Option.some.inj (hi.symm.trans ht)
  have hmem : t ∈ g.triggers := mem_triggers.2 ⟨List.mem_of_getElem? ht, htype⟩
  refine ⟨t, s, ?_, ht⟩
  match htriggers : g.triggers with
  | [] => simp [htriggers] at hmem
  | [n] => rw [hsame n (by simp [htriggers])]
  | n :: n' :: rest =>
    have hn : n = t := hsame n (by simp [htriggers])
    have hn' : n' = t := hsame n' (by simp [htriggers])
    simp [htriggers, hn, hn'] at hdistinct

theorem triggerDefects_eq_nil_iff :
    g.triggerDefects = [] ↔
      (∃! i, g.IsTrigger i) ∧ ∀ i, g.IsTrigger i → ∀ j, ¬g.Joins j i := by
  constructor
  · intro h
    obtain ⟨t, -, -, -, htrigger, -⟩ := exists_trigger_of_triggerDefects h
    have htriggers : g.triggers = [t] := by
      unfold trigger? at htrigger
      split at htrigger <;> cases htrigger
      assumption
    have hmem : t ∈ g.triggers := by simp [htriggers]
    obtain ⟨s, hs⟩ := exists_getElem?_of_mem (mem_triggers.1 hmem).1
    have hiff := fun i => wf.isTrigger_iff htriggers hs (i := i)
    have hincoming : (g.incomingAt s).isEmpty := by
      by_contra hne
      simp [triggerDefects, htriggers, wf.incoming_eq hs, hne] at h
    refine ⟨⟨s, (hiff s).2 rfl, fun i hi => (hiff i).1 hi⟩, fun i hi => ?_⟩
    rw [(hiff i).1 hi]
    exact isEmpty_incomingAt_iff.1 hincoming
  · rintro ⟨hunique, hentrance⟩
    obtain ⟨t, s, htriggers, hs⟩ := wf.exists_triggers_eq hunique
    have hincoming := isEmpty_incomingAt_iff.2
      (hentrance s ((wf.isTrigger_iff htriggers hs).2 rfl))
    simp [triggerDefects, htriggers, wf.incoming_eq hs, hincoming]

theorem reachabilityDefects_eq_nil_iff (hunique : ∃! i, g.IsTrigger i) :
    g.reachabilityDefects = [] ↔
      ∀ i, g.IsTrigger i → ∀ j < g.size, ReflTransGen g.Joins i j := by
  obtain ⟨t, s, htriggers, hs⟩ := wf.exists_triggers_eq hunique
  have hiff := fun i => wf.isTrigger_iff htriggers hs (i := i)
  have hmem := fun i => wf.mem_reachableFrom (i := i) (lt_size_of_getElem? hs)
  have hnode : ∀ (n : Node) i, (n, i) ∈ g.nodes.zipIdx ↔ g.nodes[i]? = some n := by
    simp [List.mem_zipIdx_iff_getElem?]
  simp only [reachabilityDefects, trigger?, htriggers, wf.indexOf?_eq hs, Option.getD_some,
    List.filterMap_eq_nil_iff, Prod.forall, hnode]
  constructor
  · intro h i hi j hj
    rw [(hiff i).1 hi]
    obtain ⟨n, hn⟩ := exists_getElem?_of_lt hj
    by_cases htype : n.type = .trigger
    · rw [(hiff j).1 ⟨n, hn, htype⟩]
    · by_contra hfar
      have hdefect := h n j hn
      rw [if_neg htype] at hdefect
      split at hdefect
      · cases hdefect
      · simp [hmem, hfar] at hdefect
  · intro h n i hn
    have hreach := h s ((hiff s).2 rfl) i (lt_size_of_getElem? hn)
    split
    · rfl
    · rename_i htype
      have hentered : ¬(g.incomingAt i).isEmpty := fun hnone => by
        rcases ReflTransGen.cases_tail hreach with rfl | ⟨j, -, hjoins⟩
        · obtain ⟨t', ht', httype⟩ := (hiff i).2 rfl
          exact htype (Option.some.inj (hn.symm.trans ht') ▸ httype)
        · exact isEmpty_incomingAt_iff.1 hnone j hjoins
      simp [hentered, (hmem i).2 hreach]

theorem edgeDefects_eq_nil_iff :
    g.edgeDefects = [] ↔
      (∀ (i : Nat) n, g.nodes[i]? = some n → n.type = .condition →
        ((g.outgoingAt i).map (·.handle)).Perm [.whenTrue, .whenFalse]) ∧
      ∀ (i : Nat) n, g.nodes[i]? = some n → n.type ≠ .condition →
        (g.outgoingAt i).length ≤ 1 ∧ ∀ e ∈ g.outgoingAt i, e.handle = .default := by
  simp only [edgeDefects, List.flatMap_eq_nil_iff, branchingDefects_eq_nil_iff]
  constructor
  · intro h
    refine ⟨fun i n hn => ?_, fun i n hn => ?_⟩ <;> rw [← wf.outgoing_eq hn]
    · exact (h n (List.mem_of_getElem? hn)).1
    · exact (h n (List.mem_of_getElem? hn)).2
  · rintro ⟨hconditions, hothers⟩ n hmem
    obtain ⟨i, hn⟩ := exists_getElem?_of_mem hmem
    rw [wf.outgoing_eq hn]
    exact ⟨hconditions i n hn, hothers i n hn⟩

theorem cycleDefects_eq_nil_iff : g.cycleDefects = [] ↔ ∀ i, ¬TransGen g.Joins i i := by
  rw [cycleDefects, List.map_eq_nil_iff, wf.closingEdges_eq_nil_iff]

end WellFormed

theorem configDefects_eq_nil_iff : g.configDefects = [] ↔ ∀ n ∈ g.nodes, n.config.Complete := by
  simp only [configDefects, List.flatMap_eq_nil_iff, settingDefects_eq_nil_iff]

/-! ## The criterion -/

theorem WellFormed.structuralDefects_eq_nil_iff (wf : g.WellFormed) :
    g.structuralDefects = [] ↔ g.Publishable := by
  simp only [structuralDefects, List.append_eq_nil_iff, and_assoc]
  constructor
  · rintro ⟨htrigger, hreach, hedges, hcycles, hconfigs⟩
    obtain ⟨hunique, hentrance⟩ := wf.triggerDefects_eq_nil_iff.1 htrigger
    obtain ⟨hconditions, hothers⟩ := wf.edgeDefects_eq_nil_iff.1 hedges
    exact ⟨hunique, hentrance, (wf.reachabilityDefects_eq_nil_iff hunique).1 hreach,
      wf.cycleDefects_eq_nil_iff.1 hcycles, hconditions, hothers,
      configDefects_eq_nil_iff.1 hconfigs⟩
  · rintro ⟨hunique, hentrance, hreached, hacyclic, hconditions, hothers, hcomplete⟩
    exact ⟨wf.triggerDefects_eq_nil_iff.2 ⟨hunique, hentrance⟩,
      (wf.reachabilityDefects_eq_nil_iff hunique).2 hreached,
      wf.edgeDefects_eq_nil_iff.2 ⟨hconditions, hothers⟩, wf.cycleDefects_eq_nil_iff.2 hacyclic,
      configDefects_eq_nil_iff.2 hcomplete⟩

end Graph

theorem checkStructure_eq_iff {raw : Value} {g : Graph} :
    checkStructure raw = ⟨[], some g⟩ ↔ Graph.ofValue raw = .ok g ∧ g.Publishable := by
  rw [checkStructure]
  cases hparsed : Graph.ofValue raw with
  | error problems => simp
  | ok g' =>
    have hiff := (Graph.wellFormed_of_ofValue hparsed).structuralDefects_eq_nil_iff
    simp only [Validation.mk.injEq, Option.some.injEq, Except.ok.injEq]
    constructor
    · rintro ⟨hnone, rfl⟩
      exact ⟨rfl, hiff.1 hnone⟩
    · rintro ⟨rfl, hg⟩
      exact ⟨hiff.2 hg, rfl⟩

/-- Nothing is found wrong with a value just when it is a graph that runs can follow. -/
theorem isOk_checkStructure_iff (raw : Value) :
    (checkStructure raw).isOk ↔ ∃ g, Graph.ofValue raw = .ok g ∧ g.Publishable := by
  constructor
  · intro h
    obtain ⟨g, hg⟩ := exists_of_isOk_checkStructure h
    exact ⟨g, checkStructure_eq_iff.1 hg⟩
  · rintro ⟨g, hg⟩
    rw [checkStructure_eq_iff.2 hg]
    rfl

end CrmAutomation
