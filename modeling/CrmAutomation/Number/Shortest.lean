import CrmAutomation.Number.Double

/-!
# The shortest decimal text of a double

`Double.shortest?` finds the least number of decimal digits that reads back as the same double
and, of the decimals with that many digits, the nearest. `Double.text` writes them:
positionally from `10 ^ -4` up to below `10 ^ 16`, with an exponent outside.
-/

namespace CrmAutomation.Double

/-- A positive decimal `digits * 10 ^ exponent`. -/
structure DecimalDigits where
  digits : Nat
  exponent : Int
  deriving DecidableEq, Repr

/-- The `p` with `10 ^ (p - 1) ≤ num / den < 10 ^ p`. -/
def pointPosition (num den : Nat) : Int :=
  let k : Int := (digitCount num : Int) - digitCount den
  let reached := if 0 ≤ k then den * Nat.pow 10 k.toNat ≤ num else den ≤ num * Nat.pow 10 (-k).toNat
  if reached then k + 1 else k

/-- The integer part of `units / 2 ^ 1074` on the grid of step `10 ^ exponent`, and the
remainder with its divisor. -/
def gridFloor (units : Nat) (exponent : Int) : Nat × Nat × Nat :=
  if 0 ≤ exponent then
    let den := one * Nat.pow 10 exponent.toNat
    (units / den, units % den, den)
  else
    let num := units * Nat.pow 10 (-exponent).toNat
    (num / one, num % one, one)

/-- Whether a decimal reads back as the positive double of `units` units. -/
def readsBack (units : Nat) (d : DecimalDigits) : Bool :=
  ofDecimal false d.digits d.exponent == .finite false units

/-- The decimal on the grid of step `10 ^ exponent` that reads back, the nearer of two. -/
def onGrid? (units : Nat) (exponent : Int) : Option DecimalDigits :=
  let (q, r, den) := gridFloor units exponent
  let below : DecimalDigits := ⟨q, exponent⟩
  let above : DecimalDigits := ⟨q + 1, exponent⟩
  match readsBack units below, readsBack units above with
  | true, true =>
    if 2 * r < den then some below
    else if den < 2 * r then some above
    else if q % 2 = 0 then some below else some above
  | true, false => some below
  | false, true => some above
  | false, false => none

/-- The first grid of at most `fuel` more digits on which a decimal reads back. -/
def searchGrids (units : Nat) (exponent : Int) : Nat → Option DecimalDigits
  | 0 => none
  | fuel + 1 =>
    match onGrid? units exponent with
    | some d => some d
    | none => searchGrids units (exponent - 1) fuel

/-- The shortest decimal that reads back as the positive double of `units` units. -/
def shortest? (units : Nat) : Option DecimalDigits :=
  searchGrids units (pointPosition units one - 1) 17

/-- How numbers are written: positional for point positions in `(low, high]`. -/
structure NumberStyle where
  low : Int
  high : Int
  exponentWidth : Nat

/-- Positional from `0.0001` up to below `10 ^ 16`, and exponents of at least two digits. -/
def valueStyle : NumberStyle := ⟨-4, 16, 2⟩

/-- `n` zeros. -/
def zeros (n : Nat) : String := "".pushn '0' n

/-- The digits without zeros at the end. -/
def significantDigits (n : Nat) : List Char :=
  ((Nat.toDigits 10 n).reverse.dropWhile (· == '0')).reverse

/-- The text of `digits` (no zero at the end) with the point after position `point`. -/
def layout (style : NumberStyle) (digits : List Char) (point : Int) : String :=
  let n := digits.length
  if style.low < point ∧ point ≤ style.high then
    if point ≤ 0 then "0." ++ zeros (-point).toNat ++ String.ofList digits
    else if (n : Int) ≤ point then String.ofList digits ++ zeros (point.toNat - n) ++ ".0"
    else String.ofList (digits.take point.toNat) ++ "." ++ String.ofList (digits.drop point.toNat)
  else
    let mantissa := match digits with
      | [] => "0"
      | [c] => c.toString
      | c :: rest => c.toString ++ "." ++ String.ofList rest
    let e := point - 1
    let magnitude := toString e.natAbs
    mantissa ++ "e" ++ (if e < 0 then "-" else "+")
      ++ zeros (style.exponentWidth - magnitude.length) ++ magnitude

/-- The text of a double: the fewest digits that read back. -/
def text : Double → String
  | .nan => "nan"
  | .infinite s => if s then "-inf" else "inf"
  | .finite s 0 => if s then "-0.0" else "0.0"
  | .finite s u =>
    let body := match shortest? u with
      | some d =>
        layout valueStyle (significantDigits d.digits)
          ((digitCount d.digits : Int) + d.exponent)
      | none => "0.0"
    if s then "-" ++ body else body

/-- A double with exactly `places` decimals (a tie goes to the even last digit). -/
def fixedText (places : Nat) : Double → String
  | .nan => "nan"
  | .infinite s => if s then "-inf" else "inf"
  | .finite s u =>
    let k := roundHalfEven (u * Nat.pow 10 places) one
    let digits := toString (k % Nat.pow 10 places)
    (if s then "-" else "") ++ toString (k / Nat.pow 10 places)
      ++ (if places = 0 then "" else "." ++ zeros (places - digits.length) ++ digits)

end CrmAutomation.Double
