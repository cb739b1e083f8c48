import CrmAutomation.Failure
import CrmAutomation.Json.Table
import CrmAutomation.Text.Naming

/-!
# Contacts

A contact as the CRM's pipeline service describes it: its stage and tags, its own attributes
(`fields`) and the organization's custom fields. `Contact.lookup?` resolves a dotted path for
conditions, `Contact.mergeFields` is the flat view that email templates are rendered with.
-/

namespace CrmAutomation

/-- A sorted list of texts without repetition, as a set. -/
abbrev TextSet := List String

namespace TextSet

/-- Puts a text where it belongs. -/
def insert (s : String) : TextSet → TextSet
  | [] => [s]
  | t :: rest => if s < t then s :: t :: rest else if s = t then t :: rest else t :: insert s rest

/-- The set of the texts of a list. -/
def ofList (xs : List String) : TextSet := xs.foldl (fun set s => insert s set) []

end TextSet

/-- A contact of an organization. -/
structure Contact where
  id : String
  organization : String
  stage : Value
  tags : TextSet
  fields : Table
  customFields : Table
  deriving Inhabited

namespace Contact

/-! ## Reading -/

/-- The members of a description that are not attributes. -/
def reservedKeys : List String :=
  ["id", "organization_id", "organizationId", "stage_id", "stageId", "tags", "tag_ids", "fields",
    "custom_fields", "customFields"]

/-- The first of two members that is truthy, else the second. -/
def either (ms : Members) (a b : String) : Value :=
  (Members.getD a ms).orElse (Members.getD b ms)

/-- The contact that an object describes. Attributes may stand under `fields` or, when they are
not there, at the top level. -/
def ofMembers (ms : Members) : Except Failure Contact := do
  let given ← Table.ofValue ((Members.getD "fields" ms).orElse (.obj []))
  let fields := ms.foldl (fun acc p =>
    if p.1 ∈ reservedKeys then acc else Table.setDefault (.str p.1) p.2 acc) given
  let tags := (either ms "tags" "tag_ids").orElse (.list [])
  match Members.get? "id" ms with
  | none => .error (.system .keyError "id")
  | some id =>
    let organization := (either ms "organization_id" "organizationId").orElse (.str "")
    match tags.items? with
    | none => .error (Value.notIterable tags)
    | some ts =>
      let customFields ← Table.ofValue ((either ms "custom_fields" "customFields").orElse (.obj []))
      return {
        id := id.display
        organization := organization.display
        stage := either ms "stage_id" "stageId"
        tags := TextSet.ofList (ts.map Value.display)
        fields := fields
        customFields := customFields }

/-! ## Views -/

/-- The value at a path of member names. -/
def walk? : List String → Value → Option Value
  | [], v => some v
  | name :: rest, .obj ms =>
    match Members.get? name ms with
    | some v => walk? rest v
    | none => none
  | _ :: _, _ => none

/-- The attributes that paths start at. The contact's own attributes win over its id, stage and
tags. -/
def ownAttributes (c : Contact) : Table :=
  Table.set (.str "custom_fields") (.obj c.customFields.toMembers)
    (Table.merge (Table.ofMembers
      [("id", .str c.id), ("stage_id", c.stage), ("tags", .list (c.tags.map .str))]) c.fields)

/-- The value at a path that is there and not null. -/
def present? (source : Table) : List String → Option Value
  | [] => none
  | name :: rest =>
    match (source.get? name).bind (walk? rest) with
    | some .null => none
    | found => found

/-- The value at a dotted path: the contact's own attributes first, then its custom fields. -/
def lookup? (c : Contact) (path : String) : Option Value :=
  let names := Text.splitOn '.' path
  match present? c.ownAttributes names with
  | some v => some v
  | none => present? c.customFields names

/-- The flat view for rendering templates. -/
def mergeFields (c : Contact) : Table :=
  Table.set (.str "stage_id") c.stage
    (Table.set (.str "id") (.str c.id) (Table.merge c.customFields c.fields))

/-- A contact as it is sent. -/
def toValue (c : Contact) : Value :=
  .obj [("id", .str c.id), ("organization_id", .str c.organization), ("stage_id", c.stage),
    ("tags", .list (c.tags.map .str)), ("fields", .obj c.fields.toMembers),
    ("custom_fields", .obj c.customFields.toMembers)]

end Contact

end CrmAutomation
