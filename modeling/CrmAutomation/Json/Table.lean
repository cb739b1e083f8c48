import CrmAutomation.Failure

/-!
# Tables

A table is like an object, but the names of its entries are any values that are no lists or
objects. Names are the same when they are equal values (`Table.sameName`), so a number and a
boolean may be one name. `Table.ofValue` reads an object, or a list of pairs; `Table.toMembers`
gives the entries the texts of their names.
-/

namespace CrmAutomation

/-- Entries by name, in order. -/
abbrev Table := List (Value × Value)

namespace Table

/-! ## Names -/

/-- Whether two names are one. -/
def sameName : Value → Value → Bool
  | .float .nan, .float .nan => true
  | a, b => a.same b

/-- The text of a name in a document. -/
def documentName : Value → String
  | .null => "null"
  | .bool b => if b then "true" else "false"
  | v => v.display

/-! ## Entries -/

/-- The entry whose name is a text. -/
def get? (name : String) : Table → Option Value
  | [] => none
  | (.str k, v) :: rest => if k = name then some v else get? name rest
  | _ :: rest => get? name rest

/-- Replaces the entry `name` where it stands, or appends it. -/
def set (name value : Value) : Table → Table
  | [] => [(name, value)]
  | (k, v) :: rest =>
    if sameName k name then (k, value) :: rest else (k, v) :: set name value rest

/-- Whether there is an entry `name`. -/
def has (name : Value) (t : Table) : Bool := t.any fun p => sameName p.1 name

/-- Appends the entry `name` unless there is one. -/
def setDefault (name value : Value) (t : Table) : Table :=
  if has name t then t else t ++ [(name, value)]

/-- The entries of `base`, those of `added` set one after the other. -/
def merge (base added : Table) : Table := added.foldl (fun t p => set p.1 p.2 t) base

/-- The members of an object as a table. -/
def ofMembers (ms : Members) : Table := ms.map fun p => (.str p.1, p.2)

/-- The entries under the texts of their names; of entries with one text the last counts. -/
def membersBy (text : Value → String) (t : Table) : Members :=
  t.foldl (fun ms p => Members.set (text p.1) p.2 ms) []

/-- The entries as they are shown. -/
def toMembers : Table → Members := membersBy Value.display

/-- The members of a document that the entries make. -/
def document : Table → Members := membersBy documentName

end Table

/-! ## Reading -/

namespace Value

/-- The items of a value that can be gone through. -/
def items? : Value → Option (List Value)
  | .list xs => some xs
  | .str s => some (s.toList.map fun c => .str c.toString)
  | .obj ms => some (ms.map fun p => .str p.1)
  | _ => none

def notIterable (v : Value) : Failure :=
  .system .typeError ("'" ++ v.kindName ++ "' object is not iterable")

end Value

namespace Table

/-- The entry that the item at `position` of a list of pairs stands for. -/
def pair (position : Nat) (v : Value) : Except Failure (Value × Value) :=
  match v.items? with
  | none => .error (.system .typeError ("cannot convert dictionary update sequence element #"
      ++ toString position ++ " to a sequence"))
  | some [k, x] =>
    match k with
    | .list _ => .error (.system .typeError ("unhashable type: '" ++ k.kindName ++ "'"))
    | .obj _ => .error (.system .typeError ("unhashable type: '" ++ k.kindName ++ "'"))
    | _ => .ok (k, x)
  | some xs => .error (.system .valueError ("dictionary update sequence element #"
      ++ toString position ++ " has length " ++ toString xs.length ++ "; 2 is required"))

/-- The entries given by a list of pairs, from `position` on, set after those of `acc`. -/
def pairs (position : Nat) (acc : Table) : List Value → Except Failure Table
  | [] => .ok acc
  | v :: rest => do
    let (k, x) ← pair position v
    pairs (position + 1) (set k x acc) rest

/-- The table that an object is, or anything that lists pairs. -/
def ofValue : Value → Except Failure Table
  | .obj ms => .ok (ofMembers ms)
  | v => match v.items? with
    | some xs => pairs 0 [] xs
    | none => .error v.notIterable

end Table

end CrmAutomation
