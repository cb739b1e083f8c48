import CrmAutomation.Http.Url

/-!
# Queries of URLs

The query of a URL is a list of names and values, joined by ampersands; a plus sign is a blank.
-/

namespace CrmAutomation.Http

/-- The parameters of a query. -/
abbrev Query := List (String × String)

namespace Query

/-- The value of a parameter; of several with one name the last counts. -/
def get? (key : String) (q : Query) : Option String :=
  (q.reverse.find? fun p => p.1 == key).map (·.2)

/-- A name or a value as it is meant. -/
def decode (cs : List Char) : String :=
  Url.unescape (String.ofList (cs.map fun c => if c = '+' then ' ' else c))

/-- The parameter that one part of a query writes. -/
def parameter (part : String) : String × String :=
  let name := part.toList.takeWhile (· != '=')
  (decode name, decode (part.toList.drop (name.length + 1)))

/-- The parameters that a query writes. -/
def read (s : String) : Query := ((Text.splitOn '&' s).filter (· != "")).map parameter

end Query

end CrmAutomation.Http
