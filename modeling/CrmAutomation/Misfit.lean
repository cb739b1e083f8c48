import CrmAutomation.Http.Url

/-!
# Values that do not fit a model

A model says what kinds of value its fields have. `Misfit.failure` puts into words which fields do
not have such a value, each with the value's text, shortened where it is long.
-/

namespace CrmAutomation

/-- A field of a model and the value that does not fit it; `code` is the word that programs know
the problem by. -/
structure Misfit where
  field : String
  code : String
  message : String
  value : Value

namespace Misfit

def notText (field : String) (v : Value) : Misfit :=
  ⟨field, "string_type", "Input should be a valid string", v⟩

def notObject (field : String) (v : Value) : Misfit :=
  ⟨field, "dict_type", "Input should be a valid dictionary", v⟩

/-- As many characters from the beginning as fit into `room` bytes. -/
def fitting (room : Nat) : List Char → List Char
  | [] => []
  | c :: rest => if c.utf8Size ≤ room then c :: fitting (room - c.utf8Size) rest else []

/-- The greatest length in bytes of a text that is shown whole. -/
def maxShown : Nat := 50

/-- A text without its middle if it is long. -/
def shortened (s : String) : String :=
  if s.utf8ByteSize ≤ maxShown then s
  else String.ofList (fitting 25 s.toList) ++ "..."
    ++ String.ofList (fitting 24 s.toList.reverse).reverse

/-- Where a problem is explained. -/
def explanation (code : String) : Url :=
  { scheme := "https", userinfo := "", host := "errors.pydantic.dev", port := none,
    path := "/2.14/v/" ++ code, query := none, fragment := none }

/-- One problem in words. -/
def text (m : Misfit) : String :=
  m.field ++ "\n  " ++ m.message ++ " [type=" ++ m.code ++ ", input_value="
    ++ shortened m.value.inner ++ ", input_type=" ++ m.value.kindName
    ++ "]\n    For further information visit " ++ (explanation m.code).text

/-- The failure to make a model. -/
def failure (model : String) (misfits : List Misfit) : Failure :=
  .system .invalidModel (String.intercalate "\n"
    ((toString misfits.length ++ " validation error" ++ (if misfits.length = 1 then "" else "s")
      ++ " for " ++ model) :: misfits.map text))

end Misfit

end CrmAutomation
