/-!
# Double precision numbers

A finite double is a sign and a natural number of units of size `2 ^ -1074`, the least
positive double, so every order and rounding question is one about natural numbers.
`Double.ofRatio` rounds an exact ratio to the nearest double, a tie to the even significand;
each operation is its exact result rounded that way.
-/

namespace CrmAutomation

/-- A binary64 number: a finite one is `± units / 2 ^ 1074`. -/
inductive Double where
  | nan
  | infinite (negative : Bool)
  | finite (negative : Bool) (units : Nat)
  deriving DecidableEq, Repr, Inhabited

namespace Double

/-- The number of units in one. -/
def one : Nat := Nat.pow 2 1074

/-- The least number of units that is too large for a finite double. -/
def limit : Nat := Nat.pow 2 2098

/-- The nearest integer to `num / den`, a tie to the even one. -/
def roundHalfEven (num den : Nat) : Nat :=
  let q := num / den
  let r := num % den
  if 2 * r < den then q
  else if den < 2 * r then q + 1
  else if q % 2 = 0 then q else q + 1

/-- The distance between neighbouring doubles around `units` units. -/
def spacing (units : Nat) : Nat := Nat.pow 2 (Nat.log2 units - 52)

/-- The representable number of units nearest to `num / den` units, overflow aside. -/
def roundUnits (num den : Nat) : Nat :=
  let step := spacing (num / den)
  roundHalfEven num (den * step) * step

/-- The double with the sign `negative` nearest to `num / den` units. -/
def ofUnitsRatio (negative : Bool) (num den : Nat) : Double :=
  let units := roundUnits num den
  if limit ≤ units then .infinite negative else .finite negative units

/-- The double nearest to `± num / den`. -/
def ofRatio (negative : Bool) (num den : Nat) : Double :=
  ofUnitsRatio negative (num * one) den

/-- The double nearest to an integer. -/
def ofInt (i : Int) : Double := ofRatio (decide (i < 0)) i.natAbs 1

/-- The number of decimal digits of a natural number. -/
def digitCount (n : Nat) : Nat := (Nat.toDigits 10 n).length

/-- The double nearest to `± digits * 10 ^ exponent`. Far outside the range the answer is known
without computing the power. -/
def ofDecimal (negative : Bool) (digits : Nat) (exponent : Int) : Double :=
  let top := (digitCount digits : Int) + exponent
  if digits = 0 then .finite negative 0
  else if 400 < top then .infinite negative
  else if top < -400 then .finite negative 0
  else if 0 ≤ exponent then ofRatio negative (digits * Nat.pow 10 exponent.toNat) 1
  else ofRatio negative digits (Nat.pow 10 (-exponent).toNat)

def zero : Double := .finite false 0

/-- The signed number of units of a finite double, and nothing for the others. -/
def signedUnits? : Double → Option Int
  | .finite true u => some (-(u : Int))
  | .finite false u => some u
  | _ => none

def isFinite : Double → Bool
  | .finite _ _ => true
  | _ => false

def isZero : Double → Bool
  | .finite _ 0 => true
  | _ => false

def isNegative : Double → Bool
  | .finite s _ => s
  | .infinite s => s
  | .nan => false

def neg : Double → Double
  | .nan => .nan
  | .infinite s => .infinite !s
  | .finite s u => .finite (!s) u

def abs : Double → Double
  | .nan => .nan
  | .infinite _ => .infinite false
  | .finite _ u => .finite false u

/-- The sum of two doubles. An exact zero sum is positive unless both addends are negative. -/
def add : Double → Double → Double
  | .nan, _ => .nan
  | _, .nan => .nan
  | .infinite s, .infinite t => if s = t then .infinite s else .nan
  | .infinite s, .finite _ _ => .infinite s
  | .finite _ _, .infinite t => .infinite t
  | .finite s u, .finite t v =>
    let a : Int := if s then -(u : Int) else u
    let b : Int := if t then -(v : Int) else v
    if a + b = 0 then .finite (s && t) 0
    else ofUnitsRatio (decide (a + b < 0)) (a + b).natAbs 1

def sub (a b : Double) : Double := add a (neg b)

/-- The product of two doubles. -/
def mul : Double → Double → Double
  | .nan, _ => .nan
  | _, .nan => .nan
  | .infinite s, .infinite t => .infinite (s != t)
  | .infinite s, .finite t u => if u = 0 then .nan else .infinite (s != t)
  | .finite s u, .infinite t => if u = 0 then .nan else .infinite (s != t)
  | .finite s u, .finite t v => ofUnitsRatio (s != t) (u * v) one

/-- Strict order; nothing is below or above a NaN, and the two zeros are equal. -/
def lt : Double → Double → Bool
  | .nan, _ => false
  | _, .nan => false
  | .infinite s, .infinite t => s && !t
  | .infinite s, .finite _ _ => s
  | .finite _ _, .infinite t => !t
  | .finite s u, .finite t v =>
    decide ((if s then -(u : Int) else u) < (if t then -(v : Int) else v))

/-- Whether an integer of any size is below a double. -/
def intLt (i : Int) : Double → Bool
  | .nan => false
  | .infinite s => !s
  | .finite s u => decide (i * one < if s then -(u : Int) else u)

/-- Equality as numbers: the two zeros are equal and a NaN equals nothing. -/
def eq : Double → Double → Bool
  | .infinite s, .infinite t => s == t
  | .finite s u, .finite t v => (u == v) && (s == t || u == 0)
  | _, _ => false

/-- The second of two doubles if it is smaller, else the first. -/
def min (a b : Double) : Double := if lt b a then b else a

/-- The second of two doubles if it is larger, else the first. -/
def max (a b : Double) : Double := if lt a b then b else a

/-- Whether a double is a whole number. -/
def isWhole : Double → Bool
  | .finite _ u => u % one == 0
  | _ => false

/-- The integer part, toward zero. -/
def truncate? : Double → Option Int
  | .finite s u => some (if s then -((u / one : Nat) : Int) else ((u / one : Nat) : Int))
  | _ => none

/-- The nearest number with `places` decimals (a tie to the even last digit), as a double. -/
def roundPlaces (places : Nat) : Double → Double
  | .finite s u => ofRatio s (roundHalfEven (u * Nat.pow 10 places) one) (Nat.pow 10 places)
  | d => d

end Double

end CrmAutomation
