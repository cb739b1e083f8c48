import CrmAutomation.Graph.Basic
import CrmAutomation.Number.IntegerText
import CrmAutomation.Text.Naming

/-!
# Reading a graph from JSON

`Graph.ofValue` reads the builder's JSON. Missing config values are let through (a draft may be
half filled in), but every entry of the wrong shape is a problem, and all problems are
reported together in the order of the entries.
-/

namespace CrmAutomation

/-- One thing that keeps a JSON value from being a graph. -/
inductive GraphProblem where
  | notAnObject
  | notLists
  | nodeWithoutId (position : Nat)
  | duplicateId (id : String)
  | unknownType (id shown : String)
  | dataNotAnObject (id : String)
  | configNotAnObject (id : String)
  | notText (id key : String)
  | notAnInteger (id : String)
  | notWhole (id : String)
  | edgeNotAnObject (position : Nat)
  | unknownSource (position : Nat) (id : String)
  | unknownTarget (position : Nat) (id : String)
  | unknownHandle (position : Nat) (shown : String)
  deriving DecidableEq, Repr

/-- The wording of a problem. -/
def GraphProblem.message : GraphProblem → String
  | .notAnObject => "graph must be an object with 'nodes' and 'edges'"
  | .notLists => "'nodes' and 'edges' must be lists"
  | .nodeWithoutId i => "node #" ++ toString i ++ " has no id"
  | .duplicateId id => "duplicate node id '" ++ id ++ "'"
  | .unknownType id shown => "node '" ++ id ++ "': unknown type '" ++ shown ++ "'"
  | .dataNotAnObject id => "node '" ++ id ++ "': data must be an object"
  | .configNotAnObject id => "node '" ++ id ++ "': config must be an object"
  | .notText id key => "node '" ++ id ++ "': '" ++ key ++ "' must be a string"
  | .notAnInteger id => "node '" ++ id ++ "': 'duration_minutes' must be an integer"
  | .notWhole id => "node '" ++ id ++ "': 'duration_minutes' must be a whole number"
  | .edgeNotAnObject i => "edge #" ++ toString i ++ " must be an object"
  | .unknownSource i id => "edge #" ++ toString i ++ ": unknown source '" ++ id ++ "'"
  | .unknownTarget i id => "edge #" ++ toString i ++ ": unknown target '" ++ id ++ "'"
  | .unknownHandle i shown => "edge #" ++ toString i ++ ": unknown handle '" ++ shown ++ "'"

namespace Graph.Reader

/-- The minutes of a delay node that does not say how long it lasts. -/
def defaultDelayMinutes : Int := 60

/-- A config text: nothing when absent, null or empty; integers are taken as their digits. -/
def optionalText (id : String) (config : Members) (key : String) :
    Except GraphProblem (Option String) :=
  match Text.configValue? config key with
  | none => .ok none
  | some .null => .ok none
  | some (.str s) => .ok (if s = "" then none else some s)
  | some (.int i) => .ok (some (toString i))
  | some _ => .error (.notText id key)

/-- A config text, an absent one being empty. -/
def requiredText (id : String) (config : Members) (key : String) : Except GraphProblem String :=
  (optionalText id config key).map (·.getD "")

/-- The length of a delay in minutes. -/
def duration (id : String) (config : Members) : Except GraphProblem Int :=
  match Text.configValue? config "duration_minutes" with
  | none => .ok defaultDelayMinutes
  | some .null => .ok defaultDelayMinutes
  | some (.int i) => .ok i
  | some (.float d) =>
    match d.isWhole, d.truncate? with
    | true, some i => .ok i
    | _, _ => .error (.notWhole id)
  | some (.str s) =>
    if s = "" then .ok defaultDelayMinutes
    else match Number.readInteger? s with
      | some i => .ok i
      | none => .error (.notAnInteger id)
  | some _ => .error (.notAnInteger id)

/-- A config value of any kind, an absent one being null. -/
def anyValue (config : Members) (key : String) : Value := (Text.configValue? config key).getD .null

/-- The settings of a node of the given type. -/
def config (type : NodeType) (id : String) (data : Members) : Except GraphProblem NodeConfig :=
  let raw := (Members.getD "config" data).orElse (.obj [])
  match raw with
  | .obj raw =>
    match type with
    | .trigger => do
      let eventType := ((Members.getD "triggerType" data).orElse (anyValue raw "trigger_type")).orElse
        (.str "")
      let toStageId ← optionalText id raw "to_stage_id"
      let tagId ← optionalText id raw "tag_id"
      return .trigger eventType.display toStageId tagId
    | .sendEmail => do
      let templateId ← requiredText id raw "template_id"
      let fromName ← optionalText id raw "from_name"
      return .sendEmail templateId fromName
    | .moveStage => return .moveStage (← requiredText id raw "stage_id")
    | .addTag => return .addTag (← requiredText id raw "tag_id")
    | .removeTag => return .removeTag (← requiredText id raw "tag_id")
    | .webhook => return .webhook (← requiredText id raw "endpoint_id")
    | .delay => return .delay (← duration id raw)
    | .condition => do
      let field ← requiredText id raw "field"
      let operator ← requiredText id raw "operator"
      return .condition ⟨field, operator, anyValue raw "value"⟩
  | _ => .error (.configNotAnObject id)

/-- The id of a node entry: an object with a truthy `id`. -/
def nodeId? : Value → Option String
  | .obj ms =>
    let id := Members.getD "id" ms
    if id.isTruthy then some id.display else none
  | _ => none

/-- The node type that a value names. -/
def nodeType? : Value → Option NodeType
  | .str s => NodeType.ofText? s
  | _ => none

/-- The node of an entry whose id is known. -/
def node (id : String) (raw : Value) : Except GraphProblem Node :=
  match nodeType? (raw.field "type") with
  | none => .error (.unknownType id (raw.field "type").display)
  | some type =>
    match (raw.field "data").orElse (.obj []) with
    | .obj data => do
      let config ← config type id data
      return ⟨id, config, ((Members.getD "label" data).orElse (.str "")).display⟩
    | _ => .error (.dataNotAnObject id)

/-- What was found in a list of node entries: the ids met include those of faulty nodes. -/
structure NodeScan where
  problems : List GraphProblem
  seen : List String
  nodes : List Node

/-- Reads node entries from `position` on, after the ids `seen`. -/
def scanNodes (position : Nat) (seen : List String) : List Value → NodeScan
  | [] => ⟨[], seen, []⟩
  | raw :: rest =>
    match nodeId? raw with
    | none =>
      let scan := scanNodes (position + 1) seen rest
      { scan with problems := .nodeWithoutId position :: scan.problems }
    | some id =>
      if id ∈ seen then
        let scan := scanNodes (position + 1) seen rest
        { scan with problems := .duplicateId id :: scan.problems }
      else
        let scan := scanNodes (position + 1) (id :: seen) rest
        match node id raw with
        | .error p => { scan with problems := p :: scan.problems }
        | .ok n => { scan with nodes := n :: scan.nodes }

/-- The handle that a value names, a falsy one being the default. -/
def handle? (raw : Value) : Option Handle :=
  match raw.orElse (.str Handle.default.text) with
  | .str s => Handle.ofText? s
  | _ => none

/-- The edge of an entry, or the problem it has. An end at a faulty node gives neither: that
node's own problem stands for it. -/
def edge (ids seen : List String) (position : Nat) : Value → Except GraphProblem (Option Edge)
  | .obj ms =>
    let source := ((Members.getD "source" ms).orElse (.str "")).display
    let target := ((Members.getD "target" ms).orElse (.str "")).display
    match ids.idxOf? source with
    | none => if source ∈ seen then .ok none else .error (.unknownSource position source)
    | some s =>
      match ids.idxOf? target with
      | none => if target ∈ seen then .ok none else .error (.unknownTarget position target)
      | some t =>
        match handle? (Members.getD "sourceHandle" ms) with
        | some h => .ok (some ⟨s, t, h⟩)
        | none => .error (.unknownHandle position (Members.getD "sourceHandle" ms).display)
  | _ => .error (.edgeNotAnObject position)

/-- Reads edge entries from `position` on. -/
def scanEdges (ids seen : List String) (position : Nat) :
    List Value → List GraphProblem × List Edge
  | [] => ([], [])
  | raw :: rest =>
    let (problems, edges) := scanEdges ids seen (position + 1) rest
    match edge ids seen position raw with
    | .error p => (p :: problems, edges)
    | .ok (some e) => (problems, e :: edges)
    | .ok none => (problems, edges)

end Graph.Reader

/-- The graph that a JSON value describes, or everything that is wrong with it. -/
def Graph.ofValue : Value → Except (List GraphProblem) Graph
  | .obj ms =>
    match (Members.getD "nodes" ms).orElse (.list []), (Members.getD "edges" ms).orElse (.list []) with
    | .list rawNodes, .list rawEdges =>
      let scan := Graph.Reader.scanNodes 0 [] rawNodes
      let (edgeProblems, edges) :=
        Graph.Reader.scanEdges (scan.nodes.map (·.id)) scan.seen 0 rawEdges
      match scan.problems ++ edgeProblems with
      | [] => .ok ⟨scan.nodes, edges⟩
      | problems => .error problems
    | _, _ => .error [.notLists]
  | _ => .error [.notAnObject]

end CrmAutomation
