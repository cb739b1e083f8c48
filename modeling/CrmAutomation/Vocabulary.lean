/-!
# The words of the domain

The closed sets of words that graphs, runs and events are made of. Each has its list of members
in order, `text` for the word that is stored and shown, and `ofText?` to read it back.
-/

namespace CrmAutomation

/-- The member of `all` whose text is `s`. -/
def findByText {α : Type} (text : α → String) (all : List α) (s : String) : Option α :=
  all.find? fun a => text a == s

/-- The lifecycle of a definition version. -/
inductive WorkflowStatus where
  | draft
  | published
  | archived
  deriving DecidableEq, Repr, Inhabited

namespace WorkflowStatus

def all : List WorkflowStatus := [.draft, .published, .archived]

def text : WorkflowStatus → String
  | .draft => "draft"
  | .published => "published"
  | .archived => "archived"

def ofText? : String → Option WorkflowStatus := findByText text all

end WorkflowStatus

/-- The state of one run. -/
inductive RunState where
  | running
  | suspended
  | completed
  | failed
  | cancelled
  deriving DecidableEq, Repr, Inhabited

namespace RunState

def all : List RunState := [.running, .suspended, .completed, .failed, .cancelled]

def text : RunState → String
  | .running => "running"
  | .suspended => "suspended"
  | .completed => "completed"
  | .failed => "failed"
  | .cancelled => "cancelled"

def ofText? : String → Option RunState := findByText text all

/-- A run that is running or suspended still holds its contact's slot. -/
def isActive : RunState → Bool
  | .running => true
  | .suspended => true
  | _ => false

def isTerminal (s : RunState) : Bool := !s.isActive

end RunState

/-- The types of nodes that a graph may hold. -/
inductive NodeType where
  | trigger
  | sendEmail
  | moveStage
  | addTag
  | removeTag
  | webhook
  | delay
  | condition
  deriving DecidableEq, Repr, Inhabited

namespace NodeType

def all : List NodeType :=
  [.trigger, .sendEmail, .moveStage, .addTag, .removeTag, .webhook, .delay, .condition]

def text : NodeType → String
  | .trigger => "trigger"
  | .sendEmail => "send_email"
  | .moveStage => "move_stage"
  | .addTag => "add_tag"
  | .removeTag => "remove_tag"
  | .webhook => "webhook"
  | .delay => "delay"
  | .condition => "condition"

def ofText? : String → Option NodeType := findByText text all

/-- The types whose nodes act on the contact or on the outside. -/
def isAction : NodeType → Bool
  | .trigger => false
  | .delay => false
  | .condition => false
  | _ => true

end NodeType

/-- The events of the CRM that can start a workflow. -/
inductive EventType where
  | stageChanged
  | contactCreated
  | tagAdded
  | tagRemoved
  deriving DecidableEq, Repr, Inhabited

namespace EventType

def all : List EventType := [.stageChanged, .contactCreated, .tagAdded, .tagRemoved]

def text : EventType → String
  | .stageChanged => "stage_changed"
  | .contactCreated => "contact_created"
  | .tagAdded => "tag_added"
  | .tagRemoved => "tag_removed"

def ofText? : String → Option EventType := findByText text all

end EventType

/-- The sockets on which an edge may leave a node. -/
inductive Handle where
  | default
  | whenTrue
  | whenFalse
  deriving DecidableEq, Repr, Inhabited

namespace Handle

def all : List Handle := [.default, .whenTrue, .whenFalse]

def text : Handle → String
  | .default => "default"
  | .whenTrue => "true"
  | .whenFalse => "false"

def ofText? : String → Option Handle := findByText text all

/-- The socket of a condition's result. -/
def ofResult (b : Bool) : Handle := if b then .whenTrue else .whenFalse

end Handle

/-- The comparisons a condition can make. -/
inductive Operator where
  | equals
  | notEquals
  | contains
  | isEmpty
  | isNotEmpty
  | greaterThan
  | lessThan
  deriving DecidableEq, Repr, Inhabited

namespace Operator

def all : List Operator :=
  [.equals, .notEquals, .contains, .isEmpty, .isNotEmpty, .greaterThan, .lessThan]

def text : Operator → String
  | .equals => "equals"
  | .notEquals => "not_equals"
  | .contains => "contains"
  | .isEmpty => "is_empty"
  | .isNotEmpty => "is_not_empty"
  | .greaterThan => "greater_than"
  | .lessThan => "less_than"

def ofText? : String → Option Operator := findByText text all

/-- Whether the comparison has a value to compare with. -/
def needsValue : Operator → Bool
  | .isEmpty => false
  | .isNotEmpty => false
  | _ => true

end Operator

/-- The outcome of one attempt at a node. -/
inductive NodeOutcome where
  | success
  | failed
  | skipped
  deriving DecidableEq, Repr, Inhabited

namespace NodeOutcome

def all : List NodeOutcome := [.success, .failed, .skipped]

def text : NodeOutcome → String
  | .success => "success"
  | .failed => "failed"
  | .skipped => "skipped"

def ofText? : String → Option NodeOutcome := findByText text all

end NodeOutcome

theorem RunState.ofText?_text (s : RunState) : RunState.ofText? s.text = some s := by
  cases s <;> rfl

theorem WorkflowStatus.ofText?_text (s : WorkflowStatus) :
    WorkflowStatus.ofText? s.text = some s := by
  cases s <;> rfl

theorem NodeType.ofText?_text (t : NodeType) : NodeType.ofText? t.text = some t := by
  cases t <;> rfl

theorem EventType.ofText?_text (t : EventType) : EventType.ofText? t.text = some t := by
  cases t <;> rfl

theorem Handle.ofText?_text (h : Handle) : Handle.ofText? h.text = some h := by
  cases h <;> rfl

theorem Operator.ofText?_text (o : Operator) : Operator.ofText? o.text = some o := by
  cases o <;> rfl

theorem NodeOutcome.ofText?_text (o : NodeOutcome) : NodeOutcome.ofText? o.text = some o := by
  cases o <;> rfl

end CrmAutomation
