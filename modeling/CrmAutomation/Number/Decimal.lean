import CrmAutomation.Number.Double
import CrmAutomation.Text.Digit

/-!
# Decimal numbers

A decimal is read from text exactly, however many digits and whatever exponent it is written
with, and two decimals are compared exactly. `Decimal.ofText?` accepts digits of any script,
underscores anywhere, and the names of the infinities and of not-a-number.
-/

namespace CrmAutomation

/-- A decimal number; a finite one is `± digits * 10 ^ exponent`. -/
inductive Decimal where
  | nan
  | infinite (negative : Bool)
  | finite (negative : Bool) (digits : Nat) (exponent : Int)
  deriving DecidableEq, Repr

namespace Decimal

/-- The greatest position of a leading digit. -/
def maxLeading : Int := 999999999999999999

/-- The least exponent. -/
def minExponent : Int := -1999999999999999997

/-- The position of the leading digit: zero for the units. -/
def leading (digits : Nat) (exponent : Int) : Int := exponent + Double.digitCount digits - 1

/-- Whether a finite decimal is in range. -/
def inRange (digits : Nat) (exponent : Int) : Bool :=
  decide (leading digits exponent ≤ maxLeading) && decide (minExponent ≤ exponent)

/-- The character of a number, digits of any script turned into ASCII ones. -/
def asciiChar (c : Char) : Char :=
  if c.toNat < 128 then c
  else match Text.digitValue? c with
    | some n => Char.ofNat (48 + n)
    | none => Char.ofNat 0

/-- The number that ASCII digits write. -/
def digitsValue (ds : List Char) : Nat := ds.foldl (fun n c => n * 10 + (c.toNat - 48)) 0

/-- A sign and the characters after it. -/
def splitSign : List Char → Bool × List Char
  | '-' :: rest => (true, rest)
  | '+' :: rest => (false, rest)
  | rest => (false, rest)

/-- The exponent that is written after the digits: none, or `e` with an integer. -/
def exponent? : List Char → Option Int
  | [] => some 0
  | e :: rest =>
    if e = 'e' then
      let (negative, ds) := splitSign rest
      if ds.isEmpty || !ds.all Char.isDigit then none
      else
        let n : Int := digitsValue ds
        some (if negative then -n else n)
    else none

/-- The finite decimal that unsigned characters in lower case write. -/
def finite? (negative : Bool) (cs : List Char) : Option Decimal :=
  let whole := cs.takeWhile Char.isDigit
  let (frac, rest) := match cs.dropWhile Char.isDigit with
    | '.' :: r => (r.takeWhile Char.isDigit, r.dropWhile Char.isDigit)
    | r => ([], r)
  match whole ++ frac, exponent? rest with
  | [], _ => none
  | _, none => none
  | ds, some e =>
    let digits := digitsValue ds
    let exponent := e - frac.length
    if inRange digits exponent then some (.finite negative digits exponent) else none

/-- The digits after the word for not-a-number. -/
def isPayload (cs : List Char) : Bool := cs.all Char.isDigit

/-- The decimal that a text writes. -/
def ofText? (s : String) : Option Decimal :=
  let cs := (s.toList.filter (· != '_')).map fun c => (asciiChar c).toLower
  let (negative, body) := splitSign cs
  if body = "inf".toList ∨ body = "infinity".toList then some (.infinite negative)
  else if "nan".toList.isPrefixOf body ∧ isPayload (body.drop 3) then some .nan
  else if "snan".toList.isPrefixOf body ∧ isPayload (body.drop 4) then some .nan
  else finite? negative body

def isFinite : Decimal → Bool
  | .finite .. => true
  | _ => false

/-- The order of `a * 10 ^ e` and `b * 10 ^ f`. Unless the leading digits stand at the same
position the powers need not be computed. -/
def compareMagnitude (a : Nat) (e : Int) (b : Nat) (f : Int) : Ordering :=
  if a = 0 ∨ b = 0 then compare a b
  else
    match compare (leading a e) (leading b f) with
    | .eq => compare (a * Nat.pow 10 (e - min e f).toNat) (b * Nat.pow 10 (f - min e f).toNat)
    | o => o

/-- The exact order of two decimals; not-a-number is in no order with anything. -/
def compare? : Decimal → Decimal → Option Ordering
  | .nan, _ => none
  | _, .nan => none
  | .infinite s, .infinite t => some (compare t s)
  | .infinite s, .finite .. => some (if s then .lt else .gt)
  | .finite .., .infinite t => some (if t then .gt else .lt)
  | .finite s a e, .finite t b f =>
    let s := s && a != 0
    let t := t && b != 0
    match s, t with
    | true, false => some .lt
    | false, true => some .gt
    | false, false => some (compareMagnitude a e b f)
    | true, true => some (compareMagnitude b f a e)

/-- Equality as numbers. -/
def same (a b : Decimal) : Bool := compare? a b == some .eq

/-- Strict order as numbers. -/
def less (a b : Decimal) : Bool := compare? a b == some .lt

end Decimal

end CrmAutomation
