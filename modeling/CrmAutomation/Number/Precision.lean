import CrmAutomation.Number.Shortest

/-!
# Doubles to a given precision

The text of a number with a given number of digits: after the point (`Double.fixedText`), after
the first digit (`Precision.scientific`), or in all, in whichever of the two layouts suits its
size (`Precision.general`). The last digit is rounded, a tie to the even one.
-/

namespace CrmAutomation.Precision

/-- The first `count` digits of a number of units, rounded, and the power of ten of the first
one. -/
def digits (count units : Nat) : List Char × Int :=
  if units = 0 then (List.replicate count '0', 0)
  else
    let top := Double.pointPosition units Double.one
    let step := top - count
    let rounded :=
      if 0 ≤ step then Double.roundHalfEven units (Double.one * Nat.pow 10 step.toNat)
      else Double.roundHalfEven (units * Nat.pow 10 (-step).toNat) Double.one
    let ds := Nat.toDigits 10 rounded
    if count < ds.length then (ds.take count, top) else (ds, top - 1)

/-- Digits with a point after the first `whole` of them. A point without digits after it is left
out unless it is wanted. -/
def pointed (keepsPoint : Bool) (whole : Nat) (ds : List Char) : List Char :=
  let fraction := ds.drop whole
  ds.take whole ++ if fraction.isEmpty && !keepsPoint then [] else '.' :: fraction

/-- An exponent with its sign and at least two digits. -/
def exponentText (e : Int) : List Char :=
  let ds := Nat.toDigits 10 e.natAbs
  'e' :: (if e < 0 then '-' else '+') :: (List.replicate (2 - ds.length) '0' ++ ds)

/-- A number of units with `places` digits after the first one, and an exponent. -/
def scientific (keepsPoint : Bool) (places units : Nat) : List Char :=
  let (ds, e) := digits (places + 1) units
  pointed keepsPoint 1 ds ++ exponentText e

/-- A number of units with `places` digits after the point. -/
def fixed (keepsPoint : Bool) (places units : Nat) : List Char :=
  let text := (Double.fixedText places (.finite false units)).toList
  if keepsPoint && places == 0 then text ++ ['.'] else text

/-- Digits without the zeros at the end of those after the first `whole`. -/
def withoutZeros (whole : Nat) (ds : List Char) : List Char :=
  ds.take whole ++ ((ds.drop whole).reverse.dropWhile (· == '0')).reverse

/-- A number of units with `count` digits: positional for exponents from -4 up to below `count`.
Zeros at the end are left out unless the point is kept. -/
def general (keepsPoint : Bool) (count units : Nat) : List Char :=
  let count := max count 1
  let (ds, e) := digits count units
  let trimmed (whole : Nat) (ds : List Char) : List Char :=
    pointed keepsPoint whole (if keepsPoint then ds else withoutZeros whole ds)
  if -4 ≤ e ∧ e < count then
    if e < 0 then trimmed 1 (List.replicate (-e).toNat '0' ++ ds) else trimmed (e.toNat + 1) ds
  else trimmed 1 ds ++ exponentText e

end CrmAutomation.Precision
