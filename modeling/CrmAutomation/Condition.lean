import CrmAutomation.Contact
import CrmAutomation.Graph.Basic
import CrmAutomation.Number.Decimal
import CrmAutomation.Text.Blank

/-!
# Conditions

`Comparison.holds` decides a condition for a contact. Equality compares trimmed texts and,
when they differ, the numbers they write; the orders compare finite numbers only. A field
that is missing is empty, and every other comparison with it is an error.
-/

namespace CrmAutomation

namespace Comparison

/-- Why a comparison has no result. -/
inductive Problem where
  | unknownOperator (operator : String)
  | missingField (field contact : String)
  | boolean (role field : String)
  | notNumeric (role field : String) (value : Value)
  | notFinite (role field : String) (value : Value)

/-- The wording of a problem. -/
def Problem.message : Problem → String
  | .unknownOperator o => "Unknown operator '" ++ o ++ "'"
  | .missingField field contact => "Field '" ++ field ++ "' is missing on subject " ++ contact
  | .boolean role field => role ++ " for '" ++ field ++ "' is a boolean, not a number"
  | .notNumeric role field v => role ++ " for '" ++ field ++ "' is not numeric: " ++ v.inner
  | .notFinite role field v => role ++ " for '" ++ field ++ "' is not a finite number: " ++ v.inner

/-- The text that a value is compared by. -/
def comparedText : Value → String
  | .bool b => if b then "true" else "false"
  | v => Text.trim v.display

/-- Whether a value counts as empty. -/
def isEmptyValue : Value → Bool
  | .null => true
  | .str s => (Text.trimChars s.toList).isEmpty
  | .list xs => xs.isEmpty
  | .obj ms => ms.isEmpty
  | _ => false

/-- Equality of two values: the same text, or the same number. -/
def sameValue (a b : Value) : Bool :=
  let left := comparedText a
  let right := comparedText b
  left == right ||
    match Decimal.ofText? left, Decimal.ofText? right with
    | some x, some y => Decimal.same x y
    | _, _ => false

/-- Whether `needle` occurs in a list of characters. -/
def occursIn (needle : List Char) : List Char → Bool
  | [] => needle.isEmpty
  | c :: rest => needle.isPrefixOf (c :: rest) || occursIn needle rest

/-- Whether a text or list contains a value, letter case aside. -/
def containsValue (actual expected : Value) : Bool :=
  let needle := Text.lower (comparedText expected)
  match actual with
  | .list xs => xs.any fun x => Text.lower (comparedText x) == needle
  | v => occursIn needle.toList (Text.lower (comparedText v)).toList

/-- The finite number that a value is. -/
def number (role field : String) : Value → Except Problem Decimal
  | .bool _ => .error (.boolean role field)
  | v =>
    match Decimal.ofText? (Text.trim v.display) with
    | none => .error (.notNumeric role field v)
    | some d => if d.isFinite then .ok d else .error (.notFinite role field v)

/-- The result of comparing a value that is there. -/
def compareValue (c : Comparison) (operator : Operator) (actual : Value) : Except Problem Bool :=
  match operator with
  | .isEmpty => .ok (isEmptyValue actual)
  | .isNotEmpty => .ok (!isEmptyValue actual)
  | .equals => .ok (sameValue actual c.value)
  | .notEquals => .ok (!sameValue actual c.value)
  | .contains => .ok (containsValue actual c.value)
  | .greaterThan => do
    let left ← number "Subject value" c.field actual
    let right ← number "Condition value" c.field c.value
    return Decimal.less right left
  | .lessThan => do
    let left ← number "Subject value" c.field actual
    let right ← number "Condition value" c.field c.value
    return Decimal.less left right

/-- The result of a condition for a contact. -/
def holds (c : Comparison) (contact : Contact) : Except Problem Bool :=
  match Operator.ofText? c.operator with
  | none => .error (.unknownOperator c.operator)
  | some operator =>
    match contact.lookup? c.field, operator with
    | some actual, _ => compareValue c operator actual
    | none, .isEmpty => .ok true
    | none, .isNotEmpty => .ok false
    | none, _ => .error (.missingField c.field contact.id)

end Comparison

end CrmAutomation
