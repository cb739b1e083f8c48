import CrmAutomation.Number.Shortest
import CrmAutomation.Text.Quoted

/-!
# JSON values

Payloads, graphs, contact attributes and audit outputs are JSON of any shape. Integers and
doubles are different values, and an object keeps the order of its members
(`Value.set` replaces in place or appends). `Value.display` is the text of a value where a
message or an identifier is made from it; `Value.isTruthy` tells the empty values from the
others.
-/

namespace CrmAutomation

/-- A JSON value. -/
inductive Value where
  | null
  | bool (b : Bool)
  | int (i : Int)
  | float (d : Double)
  | str (s : String)
  | list (items : List Value)
  | obj (members : List (String × Value))
  deriving Inhabited

/-- The members of an object, in order. -/
abbrev Members := List (String × Value)

namespace Members

/-- The value of a member. -/
def get? (key : String) : Members → Option Value
  | [] => none
  | (k, v) :: rest => if k = key then some v else get? key rest

/-- Whether there is a member `key`. -/
def has (key : String) (m : Members) : Bool := (get? key m).isSome

/-- Replaces the member `key` where it stands, or appends it. -/
def set (key : String) (value : Value) : Members → Members
  | [] => [(key, value)]
  | (k, v) :: rest => if k = key then (key, value) :: rest else (k, v) :: set key value rest

/-- Appends the member `key` unless there is one. -/
def setDefault (key : String) (value : Value) (m : Members) : Members :=
  if has key m then m else set key value m

/-- Removes the member `key`. -/
def erase (key : String) (m : Members) : Members := m.filter fun p => p.1 != key

/-- The members of `base`, those of `over` set one after the other. -/
def merge (base added : Members) : Members := added.foldl (fun m p => set p.1 p.2 m) base

/-- The member `key`, an absent one being null. -/
def getD (key : String) (m : Members) : Value := (get? key m).getD .null

theorem get?_set_self (key : String) (v : Value) (m : Members) :
    get? key (set key v m) = some v := by
  induction m with
  | nil => simp [set, get?]
  | cons p rest ih => by_cases h : p.1 = key <;> simp [set, get?, h, ih]

theorem get?_set_of_ne {key other : String} (h : other ≠ key) (v : Value) (m : Members) :
    get? other (set key v m) = get? other m := by
  induction m with
  | nil => simp [set, get?, h.symm]
  | cons p rest ih =>
    by_cases hp : p.1 = key
    · simp [set, get?, hp, h.symm]
    · simp only [set, hp, if_false, get?, ih]

end Members

namespace Value

/-- False for null, false, zero, and the empty text, list and object. -/
def isTruthy : Value → Bool
  | .null => false
  | .bool b => b
  | .int i => i != 0
  | .float d => !d.isZero
  | .str s => s != ""
  | .list xs => !xs.isEmpty
  | .obj ms => !ms.isEmpty

def isNull : Value → Bool
  | .null => true
  | _ => false

/-- The first of two values if it is truthy, else the second. -/
def orElse (a b : Value) : Value := if a.isTruthy then a else b

def str? : Value → Option String
  | .str s => some s
  | _ => none

def int? : Value → Option Int
  | .int i => some i
  | _ => none

def bool? : Value → Option Bool
  | .bool b => some b
  | _ => none

def list? : Value → Option (List Value)
  | .list xs => some xs
  | _ => none

def obj? : Value → Option Members
  | .obj ms => some ms
  | _ => none

/-- The member `key` of an object; null for an absent one and for other values. -/
def field (key : String) : Value → Value
  | .obj ms => Members.getD key ms
  | _ => .null

/-- The name of the kind of a value, as error messages give it. -/
def kindName : Value → String
  | .null => "NoneType"
  | .bool _ => "bool"
  | .int _ => "int"
  | .float _ => "float"
  | .str _ => "str"
  | .list _ => "list"
  | .obj _ => "dict"

mutual

/-- The text of a value inside another one: texts are quoted. -/
def inner : Value → String
  | .null => "None"
  | .bool b => if b then "True" else "False"
  | .int i => toString i
  | .float d => d.text
  | .str s => Text.quoted s
  | .list xs => "[" ++ innerItems xs ++ "]"
  | .obj ms => "\x7b" ++ innerMembers ms ++ "\x7d"

/-- The texts of the items of a list, separated by commas. -/
def innerItems : List Value → String
  | [] => ""
  | [v] => inner v
  | v :: w :: rest => inner v ++ ", " ++ innerItems (w :: rest)

/-- The texts of the members of an object, separated by commas. -/
def innerMembers : List (String × Value) → String
  | [] => ""
  | [(k, v)] => Text.quoted k ++ ": " ++ inner v
  | (k, v) :: p :: rest => Text.quoted k ++ ": " ++ inner v ++ ", " ++ innerMembers (p :: rest)

end

/-- The text of a value: a text is itself. -/
def display : Value → String
  | .str s => s
  | v => inner v

mutual

/-- Whether every number in a value is finite. -/
def isFinite : Value → Bool
  | .float d => d.isFinite
  | .list xs => itemsFinite xs
  | .obj ms => membersFinite ms
  | _ => true

/-- Whether every number in the items of a list is finite. -/
def itemsFinite : List Value → Bool
  | [] => true
  | v :: rest => isFinite v && itemsFinite rest

/-- Whether every number in the members of an object is finite. -/
def membersFinite : List (String × Value) → Bool
  | [] => true
  | (_, v) :: rest => isFinite v && membersFinite rest

end

/-- The integer that a number or a boolean equals. -/
def whole? : Value → Option Int
  | .bool b => some (if b then 1 else 0)
  | .int i => some i
  | .float d => if d.isWhole then d.truncate? else none
  | _ => none

mutual

/-- Equality of values: numbers and booleans by what they are worth, objects without regard to the
order of their members. -/
def same : Value → Value → Bool
  | .null, .null => true
  | .str a, .str b => a == b
  | .list xs, .list ys => sameItems xs ys
  | .obj ms, .obj ns => ms.length == ns.length && sameMembers ms ns
  | .float a, .float b => Double.eq a b
  | .null, _ => false
  | .str _, _ => false
  | .list _, _ => false
  | .obj _, _ => false
  | a, b => match whole? a, whole? b with
    | some i, some j => i == j
    | _, _ => false

/-- Equality of the items of two lists. -/
def sameItems : List Value → List Value → Bool
  | [], [] => true
  | x :: xs, y :: ys => same x y && sameItems xs ys
  | _, _ => false

/-- Whether every member is there in an object with an equal value. -/
def sameMembers : List (String × Value) → List (String × Value) → Bool
  | [], _ => true
  | (k, v) :: rest, other => (match Members.get? k other with
    | some w => same v w
    | none => false) && sameMembers rest other

end

/-- An optional text as a value. -/
def ofOption : Option String → Value
  | some s => .str s
  | none => .null

end Value

end CrmAutomation
