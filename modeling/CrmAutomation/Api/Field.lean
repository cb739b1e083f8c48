import CrmAutomation.Http.Query
import CrmAutomation.Settings
import CrmAutomation.Vocabulary

/-!
# Fields of requests

What a request carries is checked field by field. `Checked` collects every complaint, so that a
caller learns all that is wrong at once, in the order of the fields.
-/

namespace CrmAutomation.Api

/-- What is wrong with a field. -/
inductive FieldProblem where
  | missing
  | notText
  | tooShort (least : Nat)
  | tooLong (most : Nat)
  | notObject
  | notRecord
  | notOneOf (choices : List String)
  | notWhole
  | tooManyDigits
  | tooSmall (least : Int)
  | tooLarge (most : Int)
  | notJson (reason : String)
  deriving DecidableEq, Repr

namespace FieldProblem

/-- The word that programs know a problem by. -/
def code : FieldProblem → String
  | .missing => "missing"
  | .notText => "string_type"
  | .tooShort _ => "string_too_short"
  | .tooLong _ => "string_too_long"
  | .notObject => "dict_type"
  | .notRecord => "model_attributes_type"
  | .notOneOf _ => "enum"
  | .notWhole => "int_parsing"
  | .tooManyDigits => "int_parsing_size"
  | .tooSmall _ => "greater_than_equal"
  | .tooLarge _ => "less_than_equal"
  | .notJson _ => "json_invalid"

/-- A number of characters. -/
def characters (n : Nat) : String := toString n ++ (if n = 1 then " character" else " characters")

/-- Quoted choices, the last after an "or". -/
def alternatives : List String → String
  | [] => ""
  | [a] => Text.quoted a
  | [a, b] => Text.quoted a ++ " or " ++ Text.quoted b
  | a :: rest => Text.quoted a ++ ", " ++ alternatives rest

/-- The wording of a problem. -/
def message : FieldProblem → String
  | .missing => "Field required"
  | .notText => "Input should be a valid string"
  | .tooShort n => "String should have at least " ++ characters n
  | .tooLong n => "String should have at most " ++ characters n
  | .notObject => "Input should be a valid dictionary"
  | .notRecord => "Input should be a valid dictionary or object to extract fields from"
  | .notOneOf choices => "Input should be " ++ alternatives choices
  | .notWhole => "Input should be a valid integer, unable to parse string as an integer"
  | .tooManyDigits => "Unable to parse input string as an integer, exceeded maximum size"
  | .tooSmall n => "Input should be greater than or equal to " ++ toString n
  | .tooLarge n => "Input should be less than or equal to " ++ toString n
  | .notJson _ => "JSON decode error"

/-- What a problem was judged by. -/
def context : FieldProblem → Members
  | .tooShort n => [("min_length", .int n)]
  | .tooLong n => [("max_length", .int n)]
  | .notOneOf choices => [("expected", .str (alternatives choices))]
  | .tooSmall n => [("ge", .int n)]
  | .tooLarge n => [("le", .int n)]
  | .notJson reason => [("error", .str reason)]
  | _ => []

end FieldProblem

/-- A problem, the place in the request where it is, and the value that is looked at there. -/
structure Complaint where
  place : List Value
  problem : FieldProblem
  input : Value

/-- A complaint as it is sent. -/
def Complaint.toValue (c : Complaint) : Value :=
  let context := c.problem.context
  .obj ([("type", .str c.problem.code), ("loc", .list c.place), ("msg", .str c.problem.message),
    ("input", c.input)] ++ (if context.isEmpty then [] else [("ctx", .obj context)]))

/-- A part of a request, or all that is wrong with it. -/
abbrev Checked (α : Type) := Except (List Complaint) α

namespace Checked

/-- Two parts, with the complaints about both. -/
def pair {α β : Type} (a : Checked α) (b : Checked β) : Checked (α × β) :=
  match a, b with
  | .ok x, .ok y => .ok (x, y)
  | .ok _, .error ds => .error ds
  | .error cs, .ok _ => .error cs
  | .error cs, .error ds => .error (cs ++ ds)

end Checked

/-! ## Fields of a body -/

/-- A complaint about a field of the body. -/
def inBody {α : Type} (key : String) (problem : FieldProblem) (input : Value) : Checked α :=
  .error [⟨[.str "body", .str key], problem, input⟩]

/-- A field that has to be there, of a body with certain members. -/
def requiredField {α : Type} (ms : Members) (key : String) (check : Value → Checked α) : Checked α :=
  match Members.get? key ms with
  | some v => check v
  | none => inBody key .missing (.obj ms)

/-- A field that may be missing or null. -/
def optionalField {α : Type} (ms : Members) (key : String) (check : Value → Checked α) :
    Checked (Option α) :=
  match Members.getD key ms with
  | .null => .ok none
  | v => (check v).map some

/-- A text between two lengths. -/
def checkText (key : String) (least : Nat) (most : Option Nat) : Value → Checked String
  | .str s =>
    if s.length < least then inBody key (.tooShort least) (.str s)
    else match most with
      | some m => if m < s.length then inBody key (.tooLong m) (.str s) else .ok s
      | none => .ok s
  | v => inBody key .notText v

/-- A text that has to be there. -/
def textField (ms : Members) (key : String) (least : Nat) (most : Option Nat) : Checked String :=
  requiredField ms key (checkText key least most)

/-- A text that may be missing or null. -/
def textField? (ms : Members) (key : String) (least : Nat) (most : Option Nat) :
    Checked (Option String) :=
  optionalField ms key (checkText key least most)

/-- An object. -/
def checkObject (key : String) : Value → Checked Members
  | .obj ms => .ok ms
  | v => inBody key .notObject v

/-- An object that has to be there. -/
def objectField (ms : Members) (key : String) : Checked Members :=
  requiredField ms key (checkObject key)

/-- An object that is empty when it is missing. -/
def objectFieldOrEmpty (ms : Members) (key : String) : Checked Members :=
  match Members.get? key ms with
  | some v => checkObject key v
  | none => .ok []

/-- An object that may be missing or null. -/
def objectField? (ms : Members) (key : String) : Checked (Option Members) :=
  optionalField ms key (checkObject key)

/-- One of some words. -/
def choiceField {α : Type} (ms : Members) (key : String) (text : α → String) (all : List α) :
    Checked α :=
  requiredField ms key fun v =>
    match v.str?.bind (findByText text all) with
    | some a => .ok a
    | none => inBody key (.notOneOf (all.map text)) v

/-! ## Parameters of a query -/

/-- A complaint about a parameter. -/
def inQuery {α : Type} (key : String) (problem : FieldProblem) (input : Option String) :
    Checked α :=
  .error [⟨[.str "query", .str key], problem, .ofOption input⟩]

/-- An integer between two bounds, with the value it has when it is missing. -/
def wholeParameter (q : Http.Query) (key : String) (default least : Int) (most : Option Int) : Checked Int :=
  match Http.Query.get? key q with
  | none => .ok default
  | some s =>
    match Number.readWhole s with
    | .error .unreadable => inQuery key .notWhole (some s)
    | .error .tooLong => inQuery key .tooManyDigits (some s)
    | .ok n =>
      if n < least then inQuery key (.tooSmall least) (some s)
      else match most with
        | some m => if m < n then inQuery key (.tooLarge m) (some s) else .ok n
        | none => .ok n

/-- A text that has to be there. -/
def textParameter (q : Http.Query) (key : String) : Checked String :=
  match Http.Query.get? key q with
  | some s => .ok s
  | none => inQuery key .missing none

/-- One of some words, if it is there. -/
def choiceParameter? {α : Type} (q : Http.Query) (key : String) (text : α → String) (all : List α) :
    Checked (Option α) :=
  match Http.Query.get? key q with
  | none => .ok none
  | some s =>
    match findByText text all s with
    | some a => .ok (some a)
    | none => inQuery key (.notOneOf (all.map text)) (some s)

end CrmAutomation.Api
