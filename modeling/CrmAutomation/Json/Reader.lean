import CrmAutomation.Json.Value

/-!
# Reading JSON

`Json.read` reads one document. Each function returns the value and the characters after it;
a fault carries the characters that were left where it arose, so its position is known from
their number. The recursion is bounded by the number of characters: every step takes one.
-/

namespace CrmAutomation.Json

/-- What is wrong with a document. -/
inductive FaultKind where
  | expectedValue
  | expectedPropertyName
  | expectedColon
  | expectedComma
  | unterminatedText
  | controlCharacter
  | badEscape
  | badUnitEscape
  | extraData
  | integerTooLong (digits : Nat)
  | tooDeep (object : Bool)
  deriving DecidableEq, Repr

/-- A fault and the number of characters from it to the end. -/
structure Fault where
  kind : FaultKind
  remaining : Nat
  deriving Repr

/-- The wording of a fault. -/
def FaultKind.text : FaultKind → String
  | .expectedValue => "Expecting value"
  | .expectedPropertyName => "Expecting property name enclosed in double quotes"
  | .expectedColon => "Expecting ':' delimiter"
  | .expectedComma => "Expecting ',' delimiter"
  | .unterminatedText => "Unterminated string starting at"
  | .controlCharacter => "Invalid control character at"
  | .badEscape => "Invalid \\escape"
  | .badUnitEscape => "Invalid \\uXXXX escape"
  | .extraData => "Extra data"
  | .integerTooLong digits =>
    "Exceeds the limit (4300 digits) for integer string conversion: value has " ++ toString digits
      ++ " digits; use sys.set_int_max_str_digits() to increase the limit"
  | .tooDeep object => "maximum recursion depth exceeded while decoding a JSON "
      ++ (if object then "object" else "array") ++ " from a unicode string"

/-- Whether a fault is one of size, which has no place in the document. -/
def FaultKind.isOfSize : FaultKind → Bool
  | .integerTooLong _ => true
  | .tooDeep _ => true
  | _ => false

/-- The most digits an integer may have. -/
def maxIntegerDigits : Nat := 4300

/-- How deep lists and objects may be nested. -/
def maxDepth : Nat := 960

def fault {α : Type} (kind : FaultKind) (rest : List Char) : Except Fault α :=
  .error ⟨kind, rest.length⟩

/-- The blanks between tokens. -/
def isSpace (c : Char) : Bool := c.toNat == 32 || c.toNat == 9 || c.toNat == 10 || c.toNat == 13

def skipSpace (cs : List Char) : List Char := cs.dropWhile isSpace

/-- The value of a hexadecimal digit. -/
def hexDigit? (c : Char) : Option Nat :=
  let n := c.toNat
  if 48 ≤ n ∧ n ≤ 57 then some (n - 48)
  else if 97 ≤ n ∧ n ≤ 102 then some (n - 87)
  else if 65 ≤ n ∧ n ≤ 70 then some (n - 55)
  else none

/-- The UTF-16 unit written by four hexadecimal digits. -/
def unit? (a b c d : Char) : Option Nat := do
  return (((← hexDigit? a) * 16 + (← hexDigit? b)) * 16 + (← hexDigit? c)) * 16 + (← hexDigit? d)

/-- A character given by one escape. A surrogate without its partner stands for no character. -/
def unitChar (n : Nat) : Char :=
  if 0xD800 ≤ n ∧ n < 0xE000 then Char.ofNat 0xFFFD else Char.ofNat n

/-- The character of a surrogate pair. -/
def pairChar (high low : Nat) : Char :=
  Char.ofNat (0x10000 + (high - 0xD800) * 0x400 + (low - 0xDC00))

/-- The character written by a backslash and `c`. -/
def shortEscape? (c : Char) : Option Char :=
  if c = Text.doubleQuote ∨ c = Text.backslash ∨ c = '/' then some c
  else match c with
    | 'b' => some (Char.ofNat 8)
    | 'f' => some (Char.ofNat 12)
    | 'n' => some (Char.ofNat 10)
    | 'r' => some (Char.ofNat 13)
    | 't' => some (Char.ofNat 9)
    | _ => none

/-- The low half of a surrogate pair, if an escape of one comes next. -/
def lowUnit? (b u x y z w : Char) : Option Nat :=
  if b = Text.backslash ∧ u = 'u' then
    match unit? x y z w with
    | some n => if 0xDC00 ≤ n ∧ n < 0xE000 then some n else none
    | none => none
  else none

/-- The rest of a text after its opening quote; `opening` is the number of characters from that
quote to the end, and `acc` holds the characters read so far, last first. -/
def readText (opening : Nat) (acc : List Char) : List Char → Except Fault (String × List Char)
  | [] => .error ⟨.unterminatedText, opening⟩
  | c :: rest =>
    if c = Text.doubleQuote then .ok (String.ofList acc.reverse, rest)
    else if c = Text.backslash then
      match rest with
      | [] => .error ⟨.unterminatedText, opening⟩
      | 'u' :: x :: y :: z :: w :: more =>
        match more with
        | [] => .error ⟨.badUnitEscape, rest.length⟩
        | b :: u :: x' :: y' :: z' :: w' :: a :: after =>
          let tail := b :: u :: x' :: y' :: z' :: w' :: a :: after
          match unit? x y z w with
          | none => .error ⟨.badUnitEscape, rest.length⟩
          | some n =>
            if 0xD800 ≤ n ∧ n < 0xDC00 then
              match lowUnit? b u x' y' z' w' with
              | some m => readText opening (pairChar n m :: acc) (a :: after)
              | none => readText opening (unitChar n :: acc) tail
            else readText opening (unitChar n :: acc) tail
        | m :: more' =>
          match unit? x y z w with
          | none => .error ⟨.badUnitEscape, rest.length⟩
          | some n => readText opening (unitChar n :: acc) (m :: more')
      | 'u' :: _ => .error ⟨.badUnitEscape, rest.length⟩
      | e :: more =>
        match shortEscape? e with
        | some d => readText opening (d :: acc) more
        | none => .error ⟨.badEscape, rest.length + 1⟩
    else if c.toNat < 32 then .error ⟨.controlCharacter, rest.length + 1⟩
    else readText opening (c :: acc) rest

/-- The number that decimal digits write. -/
def digitsValue (ds : List Char) : Nat := ds.foldl (fun n c => n * 10 + (c.toNat - 48)) 0

/-- The fraction digits after a point, if a digit follows it. -/
def fraction? : List Char → Option (List Char × List Char)
  | '.' :: rest =>
    match rest.takeWhile Char.isDigit with
    | [] => none
    | ds => some (ds, rest.dropWhile Char.isDigit)
  | _ => none

/-- The exponent, if one is written completely. -/
def exponent? : List Char → Option (Int × List Char)
  | e :: rest =>
    if e = 'e' ∨ e = 'E' then
      let (negative, rest) := match rest with
        | '-' :: r => (true, r)
        | '+' :: r => (false, r)
        | r => (false, r)
      match rest.takeWhile Char.isDigit with
      | [] => none
      | ds =>
        let n : Int := digitsValue ds
        some (if negative then -n else n, rest.dropWhile Char.isDigit)
    else none
  | [] => none

/-- A number whose integer digits are `whole`, followed by `rest`. -/
def readNumber (negative : Bool) (whole : List Char) (start rest : List Char) :
    Except Fault (Value × List Char) :=
  let (frac, rest1) := (fraction? rest).getD ([], rest)
  let (exp, rest2) := match exponent? rest1 with
    | some (e, r) => (some e, r)
    | none => (none, rest1)
  if frac.isEmpty && exp.isNone then
    if maxIntegerDigits < whole.length then fault (.integerTooLong whole.length) start
    else
      let n : Int := digitsValue whole
      .ok (.int (if negative then -n else n), rest2)
  else
    .ok (.float (Double.ofDecimal negative (digitsValue (whole ++ frac))
      (exp.getD 0 - frac.length)), rest2)

/-- A number after its sign. -/
def readUnsigned (negative : Bool) (start : List Char) : List Char →
    Except Fault (Value × List Char)
  | '0' :: rest => readNumber negative ['0'] start rest
  | cs =>
    match cs.takeWhile Char.isDigit with
    | [] => fault .expectedValue start
    | ds => readNumber negative ds start (cs.dropWhile Char.isDigit)

/-- The characters after a word that comes next. -/
def afterWord? (word : String) (cs : List Char) : Option (List Char) :=
  if word.toList.isPrefixOf cs then some (cs.drop word.length) else none

/-- A value that is a word or a number. -/
def readScalar (cs : List Char) : Except Fault (Value × List Char) :=
  match afterWord? "null" cs, afterWord? "true" cs, afterWord? "false" cs with
  | some r, _, _ => .ok (.null, r)
  | _, some r, _ => .ok (.bool true, r)
  | _, _, some r => .ok (.bool false, r)
  | none, none, none =>
    match afterWord? "NaN" cs, afterWord? "Infinity" cs, afterWord? "-Infinity" cs with
    | some r, _, _ => .ok (.float .nan, r)
    | _, some r, _ => .ok (.float (.infinite false), r)
    | _, _, some r => .ok (.float (.infinite true), r)
    | none, none, none =>
      match cs with
      | '-' :: rest => readUnsigned true cs rest
      | _ => readUnsigned false cs cs

mutual

/-- The value that comes next; lists and objects in it may be nested `depth` deep. -/
def readValue : Nat → Nat → List Char → Except Fault (Value × List Char)
  | 0, _, cs => fault .expectedValue cs
  | fuel + 1, depth, cs =>
    match cs with
    | [] => fault .expectedValue cs
    | '[' :: rest =>
      if depth = 0 then fault (.tooDeep false) cs
      else match skipSpace rest with
        | ']' :: after => .ok (.list [], after)
        | items => readItems fuel (depth - 1) [] items
    | '\x7b' :: rest =>
      if depth = 0 then fault (.tooDeep true) cs
      else match skipSpace rest with
        | '\x7d' :: after => .ok (.obj [], after)
        | members => readMembers fuel (depth - 1) [] members
    | c :: rest =>
      if c = Text.doubleQuote then
        match readText cs.length [] rest with
        | .ok (s, after) => .ok (.str s, after)
        | .error e => .error e
      else readScalar cs

/-- The items of a list up to its closing bracket; `acc` holds those read, last first. -/
def readItems : Nat → Nat → List Value → List Char → Except Fault (Value × List Char)
  | 0, _, _, cs => fault .expectedValue cs
  | fuel + 1, depth, acc, cs =>
    match readValue fuel depth cs with
    | .error e => .error e
    | .ok (v, rest) =>
      match skipSpace rest with
      | ']' :: after => .ok (.list (v :: acc).reverse, after)
      | ',' :: after => readItems fuel depth (v :: acc) (skipSpace after)
      | other => fault .expectedComma other

/-- The members of an object up to its closing brace. A repeated name keeps its first place and
its last value. -/
def readMembers : Nat → Nat → Members → List Char → Except Fault (Value × List Char)
  | 0, _, _, cs => fault .expectedPropertyName cs
  | fuel + 1, depth, acc, cs =>
    match cs with
    | [] => fault .expectedPropertyName cs
    | c :: rest =>
      if c = Text.doubleQuote then
        match readText cs.length [] rest with
        | .error e => .error e
        | .ok (key, rest) =>
          match skipSpace rest with
          | ':' :: after =>
            match readValue fuel depth (skipSpace after) with
            | .error e => .error e
            | .ok (v, rest) =>
              let acc := Members.set key v acc
              match skipSpace rest with
              | '\x7d' :: after => .ok (.obj acc, after)
              | ',' :: after => readMembers fuel depth acc (skipSpace after)
              | other => fault .expectedComma other
          | other => fault .expectedColon other
      else fault .expectedPropertyName cs

end

/-- The value that a whole document holds. -/
def read (document : String) : Except Fault Value :=
  let cs := document.toList
  match readValue (cs.length + 1) maxDepth (skipSpace cs) with
  | .error e => .error e
  | .ok (v, rest) =>
    match skipSpace rest with
    | [] => .ok v
    | extra => fault .extraData extra

/-- Where a fault is: the number of characters before it. -/
def Fault.position (document : String) (e : Fault) : Nat := document.length - e.remaining

/-- A fault with its line, column and position; a fault of size stands for itself. -/
def Fault.message (document : String) (e : Fault) : String :=
  if e.kind.isOfSize then e.kind.text
  else
    let before := document.toList.take (e.position document)
    let line := before.count (Char.ofNat 10) + 1
    let column := (before.reverse.takeWhile (· != Char.ofNat 10)).length + 1
    e.kind.text ++ ": line " ++ toString line ++ " column " ++ toString column ++ " (char "
      ++ toString (e.position document) ++ ")"

end CrmAutomation.Json
