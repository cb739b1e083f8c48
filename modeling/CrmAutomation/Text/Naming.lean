import CrmAutomation.Text.Case
import CrmAutomation.Json.Value

/-!
# Two spellings of a name

Config keys appear in snake case and in camel case; `configValue?` reads a key in either.
-/

namespace CrmAutomation.Text

/-- The parts of a text between the occurrences of `separator`. -/
def splitOn (separator : Char) (s : String) : List String :=
  let parts := s.toList.foldr (fun c (parts : List (List Char)) =>
    if c = separator then [] :: parts
    else match parts with
      | [] => [[c]]
      | p :: ps => (c :: p) :: ps) [[]]
  parts.map String.ofList

/-- The camel case of a name: underscores go, and each later word is capitalised. -/
def camelCase (name : String) : String :=
  match splitOn '_' name with
  | [] => ""
  | head :: rest => head ++ String.join (rest.map capitalize)

/-- An underscore before every capital ASCII letter but the first character. -/
def separateCapitals : List Char → List Char
  | [] => []
  | c :: rest => c :: rest.flatMap fun d => if d.isUpper then ['_', d] else [d]

/-- The snake case of a name. -/
def snakeCase (name : String) : String := lower (String.ofList (separateCapitals name.toList))

/-- The value of a config key, written as it is, in camel case or in snake case. -/
def configValue? (config : Members) (key : String) : Option Value :=
  match Members.get? key config with
  | some v => some v
  | none =>
    match Members.get? (camelCase key) config with
    | some v => some v
    | none => Members.get? (snakeCase key) config

end CrmAutomation.Text
