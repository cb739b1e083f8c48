import CrmAutomation.Text.Blank
import CrmAutomation.Text.Digit

/-!
# Integers written as text

`Number.readInteger?` reads an optional sign and decimal digits of any script. Spacing around it
is ignored, single underscores may stand between digits, and there are at most 4300 digits.
-/

namespace CrmAutomation.Number

/-- The values of digits with single underscores between them. -/
def digitGroups? : List Char → Option (List Nat)
  | [] => none
  | [c] => (Text.digitValue? c).map ([·])
  | c :: d :: rest =>
    match Text.digitValue? c with
    | none => none
    | some n =>
      if d = '_' then (digitGroups? rest).map (n :: ·) else (digitGroups? (d :: rest)).map (n :: ·)

/-- The number that digit values write. -/
def ofDigits (ds : List Nat) : Nat := ds.foldl (fun n d => n * 10 + d) 0

/-- The sign of a number and the characters after it. -/
def splitSign : List Char → Bool × List Char
  | '-' :: rest => (true, rest)
  | '+' :: rest => (false, rest)
  | rest => (false, rest)

/-- The most digits an integer may be written with. -/
def maxDigits : Nat := 4300

/-- The integer that a text writes. -/
def readInteger? (s : String) : Option Int :=
  let (negative, digits) := splitSign (Text.trimSpacing s.toList)
  match digitGroups? digits with
  | none => none
  | some ds =>
    if maxDigits < ds.length then none
    else
      let n : Int := ofDigits ds
      some (if negative then -n else n)

end CrmAutomation.Number
