import CrmAutomation.Json.Value
import CrmAutomation.Vocabulary

/-!
# Workflow graphs

A graph is a list of nodes and a list of edges between node positions, each edge leaving on a
handle. `Graph.outgoing` and `Graph.incoming` are the edges at a node in order, and
`Graph.nextNodeId?` follows the first edge that leaves on a handle.
-/

namespace CrmAutomation

/-- What a condition node compares. -/
structure Comparison where
  field : String
  operator : String
  value : Value
  deriving Inhabited

/-- The settings of a node, one form for each node type. -/
inductive NodeConfig where
  | trigger (eventType : String) (toStageId tagId : Option String)
  | sendEmail (templateId : String) (fromName : Option String)
  | moveStage (stageId : String)
  | addTag (tagId : String)
  | removeTag (tagId : String)
  | webhook (endpointId : String)
  | delay (minutes : Int)
  | condition (comparison : Comparison)
  deriving Inhabited

/-- The node type that settings belong to. -/
def NodeConfig.type : NodeConfig → NodeType
  | .trigger .. => .trigger
  | .sendEmail .. => .sendEmail
  | .moveStage .. => .moveStage
  | .addTag .. => .addTag
  | .removeTag .. => .removeTag
  | .webhook .. => .webhook
  | .delay .. => .delay
  | .condition .. => .condition

/-- The filters of a trigger: key and expected text, empty ones left out. -/
def NodeConfig.filters : NodeConfig → List (String × String)
  | .trigger _ toStageId tagId =>
    [("to_stage_id", toStageId.getD ""), ("tag_id", tagId.getD "")].filter fun p => p.2 != ""
  | _ => []

/-- A node of a graph. -/
structure Node where
  id : String
  config : NodeConfig
  label : String
  deriving Inhabited

def Node.type (n : Node) : NodeType := n.config.type

/-- An edge between two node positions. -/
structure Edge where
  source : Nat
  target : Nat
  handle : Handle
  deriving DecidableEq, Repr, Inhabited

/-- A workflow graph. -/
structure Graph where
  nodes : List Node
  edges : List Edge
  deriving Inhabited

namespace Graph

/-- The number of nodes. -/
def size (g : Graph) : Nat := g.nodes.length

/-- The position of a node. -/
def indexOf? (g : Graph) (id : String) : Option Nat := g.nodes.findIdx? fun n => n.id == id

/-- The node with an id. -/
def node? (g : Graph) (id : String) : Option Node := g.nodes.find? fun n => n.id == id

/-- The edges that leave the node at a position. -/
def outgoingAt (g : Graph) (i : Nat) : List Edge := g.edges.filter fun e => e.source == i

/-- The edges that enter the node at a position. -/
def incomingAt (g : Graph) (i : Nat) : List Edge := g.edges.filter fun e => e.target == i

/-- The edges that leave a node. -/
def outgoing (g : Graph) (id : String) : List Edge :=
  match g.indexOf? id with
  | some i => g.outgoingAt i
  | none => []

/-- The edges that enter a node. -/
def incoming (g : Graph) (id : String) : List Edge :=
  match g.indexOf? id with
  | some i => g.incomingAt i
  | none => []

/-- The positions that the edges of a node lead to. -/
def successors (g : Graph) (i : Nat) : List Nat := (g.outgoingAt i).map (·.target)

/-- The successors of the node at a position, a negative one being counted from the end. -/
def successorsAt? (g : Graph) (i : Int) : Option (List Nat) :=
  let j := if i < 0 then i + g.size else i
  if 0 ≤ j ∧ j < g.size then some (g.successors j.toNat) else none

/-- The node that the first edge leaving `id` on `handle` leads to. -/
def nextNodeId? (g : Graph) (id : String) (handle : Handle) : Option String :=
  match (g.outgoing id).find? fun e => e.handle == handle with
  | some e => g.nodes[e.target]?.map (·.id)
  | none => none

/-- The trigger nodes, in order. -/
def triggers (g : Graph) : List Node := g.nodes.filter fun n => n.type == .trigger

/-- The trigger node of a graph that has exactly one. -/
def trigger? (g : Graph) : Option Node :=
  match g.triggers with
  | [t] => some t
  | _ => none

end Graph

end CrmAutomation
