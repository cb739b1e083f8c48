import CrmAutomation.Failure
import CrmAutomation.Number.Precision

/-!
# Message templates

A template is a text with conversions such as `%s` or `%05.1f` in it, each of which takes an
argument. `Format.pieces` reads a template, and `Format.fill` puts the arguments in. A single
object as argument can be referred to by member, as in `%(name)s`. There must be as many
arguments as conversions, each of a kind that its conversion can show.
-/

namespace CrmAutomation.Format

/-! ## Templates -/

/-- A width or a precision: none, a number, or the next argument. -/
inductive Amount where
  | none
  | given (n : Nat)
  | argument
  deriving DecidableEq, Repr

/-- How a value is put into a text. -/
structure Conversion where
  member : Option String := none
  left : Bool := false
  signed : Bool := false
  spaced : Bool := false
  alternate : Bool := false
  zeroed : Bool := false
  width : Amount := .none
  precision : Amount := .none
  letter : Char
  deriving DecidableEq, Repr

/-- A piece of a template; `broken` stands for a conversion that does not end. -/
inductive Piece where
  | plain (c : Char)
  | conversion (c : Conversion)
  | broken
  deriving DecidableEq, Repr

def isFlag (c : Char) : Bool := ['-', '+', ' ', '#', '0'].contains c

/-- The number or the star that comes next, and what follows. -/
def readAmount : List Char → Amount × List Char
  | '*' :: rest => (.argument, rest)
  | cs =>
    match cs.takeWhile Char.isDigit with
    | [] => (.none, cs)
    | ds => (.given ((String.ofList ds).toNat?.getD 0), cs.dropWhile Char.isDigit)

/-- The precision after a point, zero when nothing follows it. -/
def readPrecision : List Char → Amount × List Char
  | '.' :: rest =>
    match readAmount rest with
    | (.none, rest) => (.given 0, rest)
    | found => found
  | cs => (.none, cs)

/-- The characters up to the parenthesis that closes `depth` open ones, and what follows it. -/
def readMember (depth : Nat) (acc : List Char) : List Char → Option (String × List Char)
  | [] => none
  | c :: rest =>
    if c = ')' then
      match depth with
      | 0 => some (String.ofList acc.reverse, rest)
      | depth + 1 => readMember depth (c :: acc) rest
    else readMember (if c = '(' then depth + 1 else depth) (c :: acc) rest

/-- The conversion after a percent sign, and what follows it. -/
def readConversion (cs : List Char) : Option (Conversion × List Char) := do
  let (member, cs) ← match cs with
    | '(' :: rest => (readMember 0 [] rest).map fun (name, rest) => (some name, rest)
    | _ => some (none, cs)
  let flags := cs.takeWhile isFlag
  let (width, cs) := readAmount (cs.dropWhile isFlag)
  let (precision, cs) := readPrecision cs
  let cs := match cs with
    | c :: rest => if ['h', 'l', 'L'].contains c then rest else cs
    | [] => cs
  match cs with
  | [] => none
  | letter :: rest =>
    some ({ member := member, left := flags.contains '-', signed := flags.contains '+',
            spaced := flags.contains ' ', alternate := flags.contains '#',
            zeroed := flags.contains '0', width := width, precision := precision,
            letter := letter }, rest)

/-- The pieces of a template with at most `fuel` characters. A percent sign written twice stands
for itself. -/
def piecesFrom : Nat → List Char → List Piece
  | 0, _ => []
  | _, [] => []
  | fuel + 1, '%' :: '%' :: rest => .plain '%' :: piecesFrom fuel rest
  | fuel + 1, c :: rest =>
    if c = '%' then
      match readConversion rest with
      | some (conversion, rest) => .conversion conversion :: piecesFrom fuel rest
      | none => [.broken]
    else .plain c :: piecesFrom fuel rest

def pieces (template : String) : List Piece := piecesFrom template.length template.toList

/-! ## Values -/

/-- The text of a value before it is brought to its width: a number has a sign, and may have an
introduction before its digits and zeros between the two. -/
structure Shown where
  negative : Bool := false
  introduction : List Char := []
  body : List Char
  isNumber : Bool

def mistyped (message : String) : Failure := .system .typeError message

def unfit (message : String) : Failure := .system .valueError message

/-- A text, cut to the precision. -/
def showText (precision : Option Nat) (s : String) : Shown :=
  { body := match precision with
      | some n => s.toList.take n
      | none => s.toList
    isNumber := false }

/-- A character outside ASCII as an escape. -/
def escapeWide (c : Char) : List Char :=
  let n := c.toNat
  if n < 0x80 then [c]
  else if n < 0x100 then Text.backslash :: 'x' :: Text.hex 2 n
  else if n < 0x10000 then Text.backslash :: 'u' :: Text.hex 4 n
  else Text.backslash :: 'U' :: Text.hex 8 n

/-- The base of an integer conversion. -/
def baseOf (letter : Char) : Nat :=
  if letter = 'o' then 8 else if letter = 'x' ∨ letter = 'X' then 16 else 10

/-- An integer in its base with at least as many digits as the precision says. -/
def showInteger (c : Conversion) (precision : Option Nat) (i : Int) : Shown :=
  let ds := Nat.toDigits (baseOf c.letter) i.natAbs
  let ds := if c.letter = 'X' then ds.map Char.toUpper else ds
  { negative := decide (i < 0)
    introduction := if c.alternate && baseOf c.letter != 10 then ['0', c.letter] else []
    body := List.replicate (precision.getD 0 - ds.length) '0' ++ ds
    isNumber := true }

/-- The integer that a value is, its fraction being dropped where the base is ten. -/
def integerOf (c : Conversion) : Value → Except Failure Int
  | .int i => .ok i
  | .bool b => .ok (if b then 1 else 0)
  | .float d =>
    if baseOf c.letter = 10 then
      match d with
      | .nan => .error (unfit "cannot convert float NaN to integer")
      | .infinite _ => .error (.system .overflow "cannot convert float infinity to integer")
      | d => .ok (d.truncate?.getD 0)
    else .error (mistyped
      ("%" ++ c.letter.toString ++ " format: an integer is required, not float"))
  | v => .error (mistyped
      ("%" ++ c.letter.toString ++ " format: a real number is required, not " ++ v.kindName))

/-- The double that a value is. -/
def doubleOf : Value → Except Failure Double
  | .float d => .ok d
  | .bool b => .ok (.ofInt (if b then 1 else 0))
  | .int i =>
    let d := Double.ofInt i
    if d.isFinite then .ok d
    else .error (.system .overflow "int too large to convert to float")
  | v => .error (mistyped ("must be real number, not " ++ v.kindName))

/-- The digits of a number of units in one of the layouts of doubles. -/
def layoutOf (letter : Char) (keepsPoint : Bool) (precision units : Nat) : List Char :=
  if letter = 'f' ∨ letter = 'F' then Precision.fixed keepsPoint precision units
  else if letter = 'e' ∨ letter = 'E' then Precision.scientific keepsPoint precision units
  else Precision.general keepsPoint precision units

/-- A double; a capital letter asks for capitals. -/
def showDouble (c : Conversion) (precision : Option Nat) (d : Double) : Shown :=
  let body := match d with
    | .nan => "nan".toList
    | .infinite _ => "inf".toList
    | .finite _ units => layoutOf c.letter c.alternate (precision.getD 6) units
  { negative := d.isNegative
    body := if c.letter.isUpper then body.map Char.toUpper else body
    isNumber := true }

/-- One character, given itself or by its code. -/
def showChar : Value → Except Failure Shown
  | .str s =>
    if s.length = 1 then .ok (showText none s) else .error (mistyped "%c requires int or char")
  | .int i => ofCode i
  | .bool b => ofCode (if b then 1 else 0)
  | _ => .error (mistyped "%c requires int or char")
where
  ofCode (i : Int) : Except Failure Shown :=
    if 0 ≤ i ∧ i < 0x110000 then .ok (showText none (Char.ofNat i.toNat).toString)
    else .error (.system .overflow "%c arg not in range(0x110000)")

/-- A value as its conversion shows it. -/
def showValue (c : Conversion) (precision : Option Nat) (v : Value) : Except Failure Shown :=
  if c.letter = 's' then .ok (showText precision v.display)
  else if c.letter = 'r' then .ok (showText precision v.inner)
  else if c.letter = 'a' then
    .ok (showText precision (String.ofList (v.inner.toList.flatMap escapeWide)))
  else if c.letter = 'c' then showChar v
  else if ['d', 'i', 'u', 'o', 'x', 'X'].contains c.letter then
    (integerOf c v).map (showInteger c precision)
  else if ['e', 'E', 'f', 'F', 'g', 'G'].contains c.letter then
    (doubleOf v).map (showDouble c precision)
  else .error (unfit "unsupported format character")

/-- A shown value at its width: on the left, behind zeros, or behind blanks. -/
def toWidth (c : Conversion) (left : Bool) (width : Nat) (s : Shown) : List Char :=
  let sign := if !s.isNumber then [] else if s.negative then ['-']
    else if c.signed then ['+'] else if c.spaced then [' '] else []
  let head := sign ++ s.introduction
  let missing := width - head.length - s.body.length
  if left then head ++ s.body ++ List.replicate missing ' '
  else if c.zeroed && s.isNumber then head ++ List.replicate missing '0' ++ s.body
  else List.replicate missing ' ' ++ head ++ s.body

/-! ## Filling in -/

/-- The arguments that are left; those of a table are taken by name. -/
structure Arguments where
  left : List Value
  table : Option Members

/-- The arguments that values are: a single object is a table. -/
def Arguments.of (args : List Value) : Arguments :=
  match args with
  | [.obj (p :: ms)] => ⟨args, some (p :: ms)⟩
  | _ => ⟨args, none⟩

def Arguments.next (a : Arguments) : Except Failure (Value × Arguments) :=
  match a.left with
  | v :: rest => .ok (v, { a with left := rest })
  | [] => .error (mistyped "not enough arguments for format string")

/-- The arguments, the next one being the member that is named. -/
def Arguments.select (a : Arguments) : Option String → Except Failure Arguments
  | none => .ok a
  | some name =>
    match a.table with
    | none => .error (mistyped "format requires a mapping")
    | some ms =>
      match Members.get? name ms with
      | some v => .ok { a with left := [v] }
      | none => .error (.system .keyError name)

/-- The greatest width and precision that there is room for. -/
def maxAmount : Nat := Nat.pow 2 31 - 1

/-- The number that an amount stands for, unless there is no room for it. -/
def Arguments.amount (a : Arguments) : Amount → Except Failure (Option Int × Arguments)
  | .none => .ok (none, a)
  | .given n => if n ≤ maxAmount then .ok (some n, a) else .error (unfit "too big")
  | .argument => do
    match ← a.next with
    | (.int i, rest) =>
      if i.natAbs ≤ maxAmount then return (some i, rest)
      else throw (.system .overflow "Python int too large to convert to C int")
    | (.bool b, rest) => return (some (if b then 1 else 0), rest)
    | _ => throw (mistyped "* wants int")

/-- The text that a conversion puts into the message, and the arguments after it. -/
def convert (c : Conversion) (a : Arguments) : Except Failure (List Char × Arguments) := do
  let a ← a.select c.member
  let (width, a) ← a.amount c.width
  let (precision, a) ← a.amount c.precision
  let (v, a) ← a.next
  let shown ← showValue c (precision.map Int.toNat) v
  let width := width.getD 0
  return (toWidth c (c.left || decide (width < 0)) width.natAbs shown, a)

/-- The message that pieces make of arguments, all of which must be used; a table need not be. -/
def render (a : Arguments) : List Piece → Except Failure (List Char)
  | [] =>
    if a.left.isEmpty || a.table.isSome then .ok []
    else .error (mistyped "not all arguments converted during string formatting")
  | .plain c :: rest => (render a rest).map (c :: ·)
  | .conversion c :: rest => do
    let (text, a) ← convert c a
    return text ++ (← render a rest)
  | .broken :: _ => .error (unfit "incomplete format")

/-- A template with its arguments filled in. -/
def fill (template : String) (args : List Value) : Except Failure String :=
  (render (.of args) (pieces template)).map String.ofList

end CrmAutomation.Format
