import CrmAutomation.Graph.Reader

/-!
# Validation of graphs

`Graph.structuralDefects` lists everything that keeps a graph from being published and can be
seen in the graph itself: its trigger, reachability, branching, cycles and configs, in this
order. `checkStructure` does so for a JSON value. `Graph.references` lists what the graph
refers to in the organization.
-/

namespace CrmAutomation

/-- The kinds of things that a graph refers to. -/
inductive ReferenceKind where
  | stage
  | tag
  | template
  | endpoint
  deriving DecidableEq, Repr

def ReferenceKind.text : ReferenceKind → String
  | .stage => "stage"
  | .tag => "tag"
  | .template => "template"
  | .endpoint => "webhook endpoint"

/-- A reason why a graph cannot be published. -/
inductive Defect where
  | invalidGraph (problem : String)
  | missingTrigger
  | extraTrigger (node : String)
  | triggerHasIncoming (node : String)
  | noIncomingEdge (node : String)
  | unreachable (node : String)
  | conditionBranches (node : String)
  | multipleOutgoing (node : String)
  | invalidHandle (node : String)
  | cycle (source target : String)
  | invalidTriggerType (node eventType : String)
  | missingConfig (node key : String)
  | invalidDelay (node : String)
  | invalidOperator (node operator : String)
  | unverifiedReference (node : String) (kind : ReferenceKind) (id reason : String)
  | unknownReference (node : String) (kind : ReferenceKind) (id : String)
  deriving DecidableEq, Repr

namespace Defect

/-- The word that programs know a defect by. -/
def code : Defect → String
  | .invalidGraph _ => "invalid_graph"
  | .missingTrigger => "missing_trigger"
  | .extraTrigger _ => "multiple_triggers"
  | .triggerHasIncoming _ => "trigger_has_incoming"
  | .noIncomingEdge _ => "no_incoming_edge"
  | .unreachable _ => "unreachable"
  | .conditionBranches _ => "condition_branches"
  | .multipleOutgoing _ => "multiple_outgoing"
  | .invalidHandle _ => "invalid_handle"
  | .cycle .. => "cycle"
  | .invalidTriggerType .. => "invalid_trigger_type"
  | .missingConfig .. => "missing_config"
  | .invalidDelay _ => "invalid_delay"
  | .invalidOperator .. => "invalid_operator"
  | .unverifiedReference .. => "reference_unverified"
  | .unknownReference .. => "unknown_reference"

/-- The wording of a defect. -/
def message : Defect → String
  | .invalidGraph problem => problem
  | .missingTrigger => "Workflow must have a trigger node"
  | .extraTrigger _ => "Workflow must have exactly one trigger node"
  | .triggerHasIncoming _ => "Trigger node cannot have incoming edges"
  | .noIncomingEdge _ => "Node has no incoming edge"
  | .unreachable _ => "Node is not reachable from the trigger"
  | .conditionBranches _ => "Condition node needs exactly one 'true' and one 'false' edge"
  | .multipleOutgoing _ => "Node can have at most one outgoing edge"
  | .invalidHandle _ => "Only condition nodes can branch"
  | .cycle source target => "Edge " ++ source ++ " -> " ++ target ++ " creates a cycle"
  | .invalidTriggerType _ t => "Unknown trigger type '" ++ t ++ "'"
  | .missingConfig _ key => "'" ++ key ++ "' is required"
  | .invalidDelay _ => "Delay must be at least one minute"
  | .invalidOperator _ o => "Unknown operator '" ++ o ++ "'"
  | .unverifiedReference _ kind id reason =>
    "Could not verify " ++ kind.text ++ " '" ++ id ++ "': " ++ reason
  | .unknownReference _ kind id => "Unknown " ++ kind.text ++ " '" ++ id ++ "'"

/-- The node that a defect is about. -/
def node? : Defect → Option String
  | .invalidGraph _ => none
  | .missingTrigger => none
  | .extraTrigger n => some n
  | .triggerHasIncoming n => some n
  | .noIncomingEdge n => some n
  | .unreachable n => some n
  | .conditionBranches n => some n
  | .multipleOutgoing n => some n
  | .invalidHandle n => some n
  | .cycle _ n => some n
  | .invalidTriggerType n _ => some n
  | .missingConfig n _ => some n
  | .invalidDelay n => some n
  | .invalidOperator n _ => some n
  | .unverifiedReference n _ _ _ => some n
  | .unknownReference n _ _ => some n

/-- A defect as it is stored and sent. -/
def toValue (d : Defect) : Value :=
  .obj [("code", .str d.code), ("message", .str d.message), ("node_id", .ofOption d.node?)]

end Defect

namespace Graph

/-! ## The trigger -/

def triggerDefects (g : Graph) : List Defect :=
  match g.triggers with
  | [] => [.missingTrigger]
  | [t] => if (g.incoming t.id).isEmpty then [] else [.triggerHasIncoming t.id]
  | _ :: others => others.map fun t => .extraTrigger t.id

/-! ## Reachability -/

/-- Follows edges from the positions in `queue`; `seen` holds the positions met so far. Every
position enters the queue once, so `fuel` need not exceed the number of nodes. -/
def explore (g : Graph) : Nat → List Nat → List Nat → List Nat
  | 0, _, seen => seen
  | _ + 1, [], seen => seen
  | fuel + 1, i :: queue, seen =>
    let fresh := ((g.successors i).filter fun j => !seen.contains j).eraseDups
    explore g fuel (queue ++ fresh) (seen ++ fresh)

/-- The positions that can be reached from a position. -/
def reachableFrom (g : Graph) (start : Nat) : List Nat := explore g g.size [start] [start]

def reachabilityDefects (g : Graph) : List Defect :=
  match g.trigger? with
  | none => []
  | some t =>
    let seen := g.reachableFrom ((g.indexOf? t.id).getD 0)
    g.nodes.zipIdx.filterMap fun (n, i) =>
      if n.type = .trigger then none
      else if (g.incomingAt i).isEmpty then some (.noIncomingEdge n.id)
      else if seen.contains i then none
      else some (.unreachable n.id)

/-! ## Branching -/

/-- The defects in how edges leave one node. -/
def branchingDefects (n : Node) (edges : List Edge) : List Defect :=
  if n.type = .condition then
    let handles := edges.map (·.handle)
    if handles = [.whenTrue, .whenFalse] ∨ handles = [.whenFalse, .whenTrue] then []
    else [.conditionBranches n.id]
  else
    (if 1 < edges.length then [.multipleOutgoing n.id] else [])
      ++ (if edges.any fun e => e.handle != .default then [.invalidHandle n.id] else [])

def edgeDefects (g : Graph) : List Defect :=
  g.nodes.flatMap fun n => branchingDefects n (g.outgoing n.id)

/-! ## Cycles -/

/-- The result of a search: the edges found to close a cycle, and the positions finished. -/
structure Search where
  closing : List (Nat × Nat)
  finished : List Nat

/-- Follows the edges from `current` to `children` in order. `path` holds the positions from the
root of the search to `current`: an edge back into it closes a cycle. `visit` searches a child
that has not been met. -/
def searchChildren (visit : List Nat → Nat → List Nat → Search) (path : List Nat) (current : Nat) :
    List Nat → List Nat → Search
  | [], finished => ⟨[], finished⟩
  | child :: rest, finished =>
    if child ∈ path then
      let s := searchChildren visit path current rest finished
      { s with closing := (current, child) :: s.closing }
    else if child ∈ finished then searchChildren visit path current rest finished
    else
      let first := visit path child finished
      let s := searchChildren visit path current rest first.finished
      { s with closing := first.closing ++ s.closing }

/-- Searches from a position that has not been met, depth first. Each nested search lengthens
the path, so `fuel` need not exceed the number of nodes. -/
def searchFrom (g : Graph) : Nat → List Nat → Nat → List Nat → Search
  | 0, _, _, finished => ⟨[], finished⟩
  | fuel + 1, path, current, finished =>
    let s := searchChildren (searchFrom g fuel) (current :: path) current (g.successors current)
      finished
    { s with finished := current :: s.finished }

/-- Searches from each position of `roots` that has not been met. -/
def searchRoots (g : Graph) : List Nat → List Nat → Search
  | [], finished => ⟨[], finished⟩
  | root :: rest, finished =>
    if root ∈ finished then searchRoots g rest finished
    else
      let first := searchFrom g g.size [] root finished
      let s := searchRoots g rest first.finished
      { s with closing := first.closing ++ s.closing }

/-- The edges that close a cycle, in the order a depth-first search meets them. -/
def closingEdges (g : Graph) : List (Nat × Nat) :=
  (searchRoots g (List.range g.size) []).closing

/-- The id of the node at a position. -/
def idAt (g : Graph) (i : Nat) : String := (g.nodes[i]?.map (·.id)).getD ""

def cycleDefects (g : Graph) : List Defect :=
  g.closingEdges.map fun (s, t) => .cycle (g.idAt s) (g.idAt t)

/-! ## Configs -/

/-- A defect unless the text is there. -/
def requireText (node key text : String) : List Defect :=
  if text = "" then [.missingConfig node key] else []

/-- Whether a condition has nothing to compare with. -/
def isBlankOperand : Value → Bool
  | .null => true
  | .str s => s == ""
  | _ => false

/-- The defects in the settings of one node. -/
def settingDefects (node : String) : NodeConfig → List Defect
  | .trigger eventType _ _ =>
    if (EventType.ofText? eventType).isNone then [.invalidTriggerType node eventType] else []
  | .sendEmail templateId _ => requireText node "template_id" templateId
  | .moveStage stageId => requireText node "stage_id" stageId
  | .addTag tagId => requireText node "tag_id" tagId
  | .removeTag tagId => requireText node "tag_id" tagId
  | .webhook endpointId => requireText node "endpoint_id" endpointId
  | .delay minutes => if minutes < 1 then [.invalidDelay node] else []
  | .condition c =>
    requireText node "field" c.field ++
      match Operator.ofText? c.operator with
      | none => [.invalidOperator node c.operator]
      | some o =>
        if o.needsValue && isBlankOperand c.value then [.missingConfig node "value"] else []

def configDefects (g : Graph) : List Defect :=
  g.nodes.flatMap fun n => settingDefects n.id n.config

/-- Everything wrong with a graph that can be seen in the graph itself. -/
def structuralDefects (g : Graph) : List Defect :=
  g.triggerDefects ++ g.reachabilityDefects ++ g.edgeDefects ++ g.cycleDefects ++ g.configDefects

/-! ## References -/

/-- Something that a node refers to in the organization. -/
structure Reference where
  node : String
  kind : ReferenceKind
  id : String
  deriving DecidableEq, Repr

/-- The reference to an id that may be missing or empty. -/
def optionalReference (node : String) (kind : ReferenceKind) : Option String → List Reference
  | some id => if id = "" then [] else [⟨node, kind, id⟩]
  | none => []

/-- What the settings of one node refer to. -/
def referencesOf (node : String) : NodeConfig → List Reference
  | .trigger _ toStageId tagId =>
    optionalReference node .stage toStageId ++ optionalReference node .tag tagId
  | .sendEmail templateId _ => [⟨node, .template, templateId⟩]
  | .moveStage stageId => [⟨node, .stage, stageId⟩]
  | .addTag tagId => [⟨node, .tag, tagId⟩]
  | .removeTag tagId => [⟨node, .tag, tagId⟩]
  | .webhook endpointId => [⟨node, .endpoint, endpointId⟩]
  | .delay _ => []
  | .condition _ => []

/-- Everything a graph refers to, in node order. -/
def references (g : Graph) : List Reference := g.nodes.flatMap fun n => referencesOf n.id n.config

end Graph

/-- The result of a validation: the defects found, and the graph when the value is one. -/
structure Validation where
  defects : List Defect
  graph? : Option Graph

/-- Whether a graph may be published. -/
def Validation.isOk (v : Validation) : Bool := v.defects.isEmpty

/-- A validation as it is sent. -/
def Validation.toValue (v : Validation) : Value :=
  .obj [("ok", .bool v.isOk), ("errors", .list (v.defects.map Defect.toValue))]

/-- The validation of a JSON value by everything that can be seen in the graph itself. -/
def checkStructure (raw : Value) : Validation :=
  match Graph.ofValue raw with
  | .error problems => ⟨problems.map fun p => .invalidGraph p.message, none⟩
  | .ok g => ⟨g.structuralDefects, some g⟩

end CrmAutomation
