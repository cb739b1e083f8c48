import CrmAutomation.Json.Value
import CrmAutomation.Number.Precision
import CrmAutomation.Store.Database

/-!
# Cells

A column holds values of one kind, and a value of another kind is turned into it when it is
written: a column of text keeps a number as its digits (`textCell`), a column of integers keeps a
whole number whatever its kind (`wholeCell`). Lists and objects fit into neither.
-/

namespace CrmAutomation.Database

/-- The number of digits that a column of text keeps of a number that is not an integer. -/
def keptDigits : Nat := 15

/-- The zeros at the end of a text, but not one that follows the point, taken away. -/
def withoutEndZeros (cs : List Char) : List Char :=
  match (cs.reverse.dropWhile (· == '0')).reverse with
  | [] => []
  | kept => if kept.getLast? == some '.' then kept ++ ['0'] else kept

/-- A number in a column of text; a point and a digit after it are always there. -/
def numberCell : Double → Option String
  | .nan => none
  | .infinite negative => some (if negative then "-Inf" else "Inf")
  | .finite negative units =>
    let text := Precision.general true keptDigits units
    let mantissa := text.takeWhile (· != 'e')
    let sign := if negative && units != 0 then ['-'] else []
    some (String.ofList (sign ++ withoutEndZeros mantissa ++ text.drop mantissa.length))

/-- A list or an object, which no column of text or numbers holds. -/
def unbindable : Failure := .system .unbindable ""

/-- What a column of text holds of a value. -/
def textCell : Value → Except Failure (Option String)
  | .null => .ok none
  | .bool b => .ok (some (if b then "1" else "0"))
  | .int i => return some (toString (← bound i))
  | .float d => .ok (numberCell d)
  | .str s => .ok (some s)
  | .list _ => .error unbindable
  | .obj _ => .error unbindable

/-- What a column of integers holds of a value. -/
def wholeCell : Value → Except Failure (Option Int)
  | .null => .ok none
  | .bool b => .ok (some (if b then 1 else 0))
  | .int i => return some (← bound i)
  | .float d => .ok (if d.isWhole then d.truncate? else none)
  | _ => .error unbindable

/-- The columns of a definition. -/
def definitionColumns : List String :=
  ["id", "workflow_id", "organization_id", "name", "description", "status", "version", "graph",
    "trigger_type", "published_at", "created_by_id", "created_at", "updated_at"]

/-- The columns of a definition that hold times, which are not given as JSON. -/
def timeColumns : List String := ["published_at", "created_at", "updated_at"]

/-- A cell that has to be filled. -/
def filled {α : Type} : Option α → Except Failure α
  | some a => .ok a
  | none => .error (.system .integrity "")

/-- The definition that a row of columns is. A column that is not given, or given as null, has its
default; the workflow, the organization and the name have none. -/
def definitionOf (now : Instant) (columns : Members) : Except Failure Definition := do
  if columns.any fun p => p.1 ∉ definitionColumns then throw (.system .typeError "")
  if timeColumns.any fun key => !(Members.getD key columns).isNull then
    throw (.system .statement "")
  let cell (key : String) : Except Failure (Option String) := textCell (Members.getD key columns)
  let id ← cell "id"
  let workflow ← cell "workflow_id"
  let organization ← cell "organization_id"
  let name ← cell "name"
  let description ← cell "description"
  let status ← cell "status"
  let version ← wholeCell (Members.getD "version" columns)
  let triggerType ← cell "trigger_type"
  let createdBy ← cell "created_by_id"
  return {
    id := id.getD ""
    workflow := ← filled workflow
    organization := ← filled organization
    name := ← filled name
    description := description.getD ""
    status := (status.map RowStatus.ofText).getD (.known .draft)
    version := version.getD 1
    graph := (Members.get? "graph" columns).getD (.obj [])
    triggerType := triggerType
    publishedAt := none
    createdBy := createdBy
    createdAt := now
    updatedAt := now }

end CrmAutomation.Database
