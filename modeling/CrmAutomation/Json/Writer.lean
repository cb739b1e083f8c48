import CrmAutomation.Json.Value

/-!
# Writing JSON

`Json.write` writes a value under a `Json.Style`: the separators, and whether characters
outside ASCII are escaped (those beyond the basic plane as a surrogate pair).
-/

namespace CrmAutomation.Json

/-- How a document is written. -/
structure Style where
  itemSeparator : String
  keySeparator : String
  ascii : Bool

/-- ASCII with a blank after each comma and colon. -/
def Style.spaced : Style := ⟨", ", ": ", true⟩

/-- ASCII without blanks. -/
def Style.compact : Style := ⟨",", ":", true⟩

/-- All characters as they are, without blanks. -/
def Style.compactUnicode : Style := ⟨",", ":", false⟩

/-- An escape of one UTF-16 unit. -/
def unitEscape (n : Nat) : List Char := Text.backslash :: 'u' :: Text.hex 4 n

/-- One character of a text. -/
def writeChar (style : Style) (c : Char) : List Char :=
  let n := c.toNat
  if c = Text.doubleQuote ∨ c = Text.backslash then [Text.backslash, c]
  else if n = 10 then [Text.backslash, 'n']
  else if n = 13 then [Text.backslash, 'r']
  else if n = 9 then [Text.backslash, 't']
  else if n = 8 then [Text.backslash, 'b']
  else if n = 12 then [Text.backslash, 'f']
  else if n < 32 then unitEscape n
  else if n < 127 ∨ !style.ascii then [c]
  else if n < 0x10000 then unitEscape n
  else
    let m := n - 0x10000
    unitEscape (0xD800 + m / 0x400) ++ unitEscape (0xDC00 + m % 0x400)

/-- A text between double quotes. -/
def writeText (style : Style) (s : String) : String :=
  String.ofList (Text.doubleQuote :: s.toList.flatMap (writeChar style) ++ [Text.doubleQuote])

/-- A double: the infinities and the NaN have names of their own. -/
def writeDouble : Double → String
  | .nan => "NaN"
  | .infinite s => if s then "-Infinity" else "Infinity"
  | d => d.text

mutual

/-- A value as a JSON document. -/
def write (style : Style) : Value → String
  | .null => "null"
  | .bool b => if b then "true" else "false"
  | .int i => toString i
  | .float d => writeDouble d
  | .str s => writeText style s
  | .list xs => "[" ++ writeItems style xs ++ "]"
  | .obj ms => "\x7b" ++ writeMembers style ms ++ "\x7d"

/-- The items of a list with their separators. -/
def writeItems (style : Style) : List Value → String
  | [] => ""
  | [v] => write style v
  | v :: w :: rest => write style v ++ style.itemSeparator ++ writeItems style (w :: rest)

/-- The members of an object with their separators. -/
def writeMembers (style : Style) : List (String × Value) → String
  | [] => ""
  | [(k, v)] => writeText style k ++ style.keySeparator ++ write style v
  | (k, v) :: p :: rest =>
    writeText style k ++ style.keySeparator ++ write style v ++ style.itemSeparator
      ++ writeMembers style (p :: rest)

end

end CrmAutomation.Json
