import CrmAutomation.Json.Value

/-!
# Values that are sent

JSON has no number that is not finite, and who sends a value bounds how deep it may be nested.
`Value.sendable` puts null for such numbers, `Value.depth` counts the levels.
-/

namespace CrmAutomation.Value

mutual

/-- A value with null for every number that is not finite. -/
def sendable : Value → Value
  | .float d => if d.isFinite then .float d else .null
  | .list xs => .list (sendableItems xs)
  | .obj ms => .obj (sendableMembers ms)
  | v => v

/-- The items of a list with null for every number that is not finite. -/
def sendableItems : List Value → List Value
  | [] => []
  | v :: rest => sendable v :: sendableItems rest

/-- The members of an object with null for every number that is not finite. -/
def sendableMembers : List (String × Value) → List (String × Value)
  | [] => []
  | (k, v) :: rest => (k, sendable v) :: sendableMembers rest

end

mutual

/-- The number of lists and objects inside one another. -/
def depth : Value → Nat
  | .list xs => itemsDepth xs + 1
  | .obj ms => membersDepth ms + 1
  | _ => 0

/-- The depth of the deepest item of a list. -/
def itemsDepth : List Value → Nat
  | [] => 0
  | v :: rest => max (depth v) (itemsDepth rest)

/-- The depth of the deepest member of an object. -/
def membersDepth : List (String × Value) → Nat
  | [] => 0
  | (_, v) :: rest => max (depth v) (membersDepth rest)

end

end CrmAutomation.Value
