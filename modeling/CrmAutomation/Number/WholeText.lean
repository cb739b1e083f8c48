import CrmAutomation.Number.IntegerText

/-!
# Whole numbers in parameters

A whole number in a setting or a query is written as in JSON (`plainWhole`), or loosely: with
spacing around it, a plus sign, leading zeros, single underscores, or zeros after a point
(`Number.readWhole`).
-/

namespace CrmAutomation.Number

/-- Why a text is no whole number. -/
inductive WholeFault where
  | unreadable
  | tooLong
  deriving DecidableEq, Repr

/-- The digits of a whole number without its sign: no digit precedes another unless it counts. -/
def plainDigits : List Char → Bool
  | [] => false
  | ['0'] => true
  | '0' :: _ => false
  | cs => cs.all Char.isDigit

/-- The whole number that digits write after an optional minus sign. With the sign there are at
most `maxDigits` characters; a longer run is too long whatever follows it. -/
def plainWhole (cs : List Char) : Except WholeFault Int :=
  let (negative, digits) : Bool × List Char := match cs with
    | '-' :: rest => (true, rest)
    | _ => (false, cs)
  let run := (digits.takeWhile Char.isDigit).length + (if negative then 1 else 0)
  if digits.head? != some '0' && decide (maxDigits < run) then .error .tooLong
  else if !plainDigits digits then .error .unreadable
  else
    let n : Int := ofDigits (digits.map fun c => c.toNat - 48)
    .ok (if negative then -n else n)

/-- What follows the leading zeros of `cs`, in which underscores may stand. The last zero stays
before a point and at the end. -/
def dropZeros (last : Char) : List Char → Option (List Char)
  | [] => some [last]
  | c :: rest =>
    if c = '0' ∨ c = '_' then dropZeros c rest
    else if c.isDigit ∨ c = '-' then some (c :: rest)
    else if c = '.' then some (last :: c :: rest)
    else none

/-- The number without its leading zeros; it starts with a digit or a minus sign. -/
def withoutZeros : List Char → Option (List Char)
  | [] => none
  | c :: rest =>
    if c = '0' then dropZeros c rest else if c.isDigit ∨ c = '-' then some (c :: rest) else none

/-- The number without a point and the zeros after it. -/
def withoutFraction (cs : List Char) : List Char :=
  let whole := cs.takeWhile (· != '.')
  let zeros := (cs.drop whole.length).drop 1
  if !zeros.isEmpty && zeros.all (· == '0') then whole else cs

/-- Whether underscores stand one by one between other characters. -/
def singleUnderscores : List Char → Bool
  | [] => true
  | ['_'] => false
  | '_' :: '_' :: _ => false
  | _ :: rest => singleUnderscores rest

/-- The number without single underscores in it. -/
def withoutUnderscores (cs : List Char) : List Char :=
  if cs.head? != some '_' && singleUnderscores cs then cs.filter (· != '_') else cs

/-- A loosely written number as it is plainly written. -/
def plainForm (cs : List Char) : Option (List Char) :=
  let unsigned := match Text.trimSpacing cs with
    | '+' :: '-' :: _ => []
    | '+' :: rest => rest
    | trimmed => trimmed
  (withoutZeros unsigned).map fun ds => withoutUnderscores (withoutFraction ds)

/-- The whole number that a text writes, plainly or loosely. -/
def readWhole (s : String) : Except WholeFault Int :=
  match plainWhole s.toList with
  | .error .unreadable => ((plainForm s.toList).map plainWhole).getD (.error .unreadable)
  | result => result

end CrmAutomation.Number
