import CrmAutomation.Vocabulary

/-!
# Kinds of actions

The actions that nodes can take. Moving a contact and changing its tags may be repeated without
harm; a mail or a webhook call may not. An `ActionRegistry` says which action a node type takes.
-/

namespace CrmAutomation

/-- What an action node does. -/
inductive ActionKind where
  | moveStage
  | addTag
  | removeTag
  | sendEmail
  | webhook
  deriving DecidableEq, Repr

namespace ActionKind

def text : ActionKind → String
  | .moveStage => "move_stage"
  | .addTag => "add_tag"
  | .removeTag => "remove_tag"
  | .sendEmail => "send_email"
  | .webhook => "webhook"

/-- Whether repeating the action leaves things as they are. -/
def isIdempotent : ActionKind → Bool
  | .sendEmail => false
  | .webhook => false
  | _ => true

end ActionKind

/-- The actions by the node type that takes them, in order of registration. -/
abbrev ActionRegistry := List (String × ActionKind)

namespace ActionRegistry

/-- Every action under its own name. -/
def builtin : ActionRegistry :=
  [.moveStage, .addTag, .removeTag, .sendEmail, .webhook].map fun k => (k.text, k)

/-- Registers an action under a name; a name that is taken keeps its place. -/
def register (name : String) (kind : ActionKind) : ActionRegistry → ActionRegistry
  | [] => [(name, kind)]
  | (n, k) :: rest => if n = name then (n, kind) :: rest else (n, k) :: register name kind rest

/-- The action registered under a name. -/
def get? (name : String) (r : ActionRegistry) : Option ActionKind :=
  (r.find? fun p => p.1 == name).map (·.2)

end ActionRegistry

end CrmAutomation
