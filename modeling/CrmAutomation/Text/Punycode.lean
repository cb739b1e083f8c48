/-!
# Punycode

A label with characters outside ASCII is written in ASCII: its ASCII characters first, then where
the others have to be put in, in the order of their code points. `Punycode.encode` writes a label
and `Punycode.decode?` reads it. Each distance is a number whose digits have weights that adapt to
the distances before it.
-/

namespace CrmAutomation.Text.Punycode

/-! ## Digits -/

/-- The digit of a value below 36. -/
def digit (value : Nat) : Char := Char.ofNat (if value < 26 then 97 + value else 22 + value)

/-- The value of a digit, a letter in lower or upper case. -/
def value? (c : Char) : Option Nat :=
  let n := c.toNat
  if 97 ≤ n ∧ n ≤ 122 then some (n - 97)
  else if 65 ≤ n ∧ n ≤ 90 then some (n - 65)
  else if 48 ≤ n ∧ n ≤ 57 then some (n - 22)
  else none

/-- The least value that the digit at a position must have unless it is the last one. -/
def threshold (bias position : Nat) : Nat :=
  if position ≤ bias then 1 else if bias + 26 ≤ position then 26 else position - bias

theorem threshold_pos (bias position : Nat) : 1 ≤ threshold bias position := by
  unfold threshold
  split
  · omega
  · split <;> omega

theorem threshold_le (bias position : Nat) : threshold bias position ≤ 26 := by
  unfold threshold
  split
  · omega
  · split <;> omega

/-- A distance divided until it is small, and 36 for every division. -/
def divided (distance divisions : Nat) : Nat × Nat :=
  if 455 < distance then divided (distance / 35) (divisions + 36) else (distance, divisions)
termination_by distance
decreasing_by exact Nat.div_lt_self (by omega) (by omega)

/-- The bias after a distance, with which the label has `count` characters. -/
def adapted (isFirst : Bool) (distance count : Nat) : Nat :=
  let scaled := if isFirst then distance / 700 else distance / 2
  let (rest, divisions) := divided (scaled + scaled / count) 0
  divisions + 36 * rest / (rest + 38)

/-! ## Writing -/

/-- The digits of a distance, from a position on. -/
def digits (bias position distance : Nat) : List Char :=
  let t := threshold bias position
  if distance < t then [digit distance]
  else digit (t + (distance - t) % (36 - t))
    :: digits bias (position + 36) ((distance - t) / (36 - t))
termination_by distance
decreasing_by
  have := threshold_pos bias position
  exact Nat.lt_of_le_of_lt (Nat.div_le_self _ _) (by omega)

/-- What has been written, the distance so far, the bias, and the number of characters dealt
with. -/
structure Progress where
  written : List Char
  distance : Nat
  bias : Nat
  count : Nat

/-- Goes past a character while the code point `next` is put in. -/
def pass (basic next : Nat) (p : Progress) (c : Char) : Progress :=
  if c.toNat < next then { p with distance := p.distance + 1 }
  else if c.toNat = next then
    { written := p.written ++ digits p.bias 36 p.distance
      distance := 0
      bias := adapted (p.count == basic) p.distance (p.count + 1)
      count := p.count + 1 }
  else p

/-- Puts in code points in ascending order; those below `from` have been dealt with. -/
def putIn (label : List Char) (basic : Nat) (start : Nat) (p : Progress) : List Nat → Progress
  | [] => p
  | next :: rest =>
    let moved := { p with distance := p.distance + (next - start) * (p.count + 1) }
    let passed := label.foldl (pass basic next) moved
    putIn label basic (next + 1) { passed with distance := passed.distance + 1 } rest

/-- A label in ASCII. -/
def encode (label : List Char) : List Char :=
  let basic := label.filter fun c => c.toNat < 128
  let wide := ((label.filter fun c => 128 ≤ c.toNat).map Char.toNat).eraseDups.mergeSort
  basic ++ (if basic.isEmpty then [] else ['-'])
    ++ (putIn label basic.length 128 ⟨[], 0, 72, basic.length⟩ wide).written

/-! ## Reading -/

/-- The distance that digits write, and what follows it. -/
def readDistance (bias position weight sum : Nat) : List Char → Option (Nat × List Char)
  | [] => none
  | c :: rest => do
    let v ← value? c
    let t := threshold bias position
    if v < t then some (sum + v * weight, rest)
    else readDistance bias (position + 36) (weight * (36 - t)) (sum + v * weight) rest

/-- The character with a code point, if there is one. -/
def char? (code : Nat) : Option Char := if code.isValidChar then some (Char.ofNat code) else none

/-- Puts in the characters that digits describe, at most `fuel` of them. -/
def takeOut : Nat → Nat → Nat → Nat → List Char → List Char → Option (List Char)
  | _, _, _, _, label, [] => some label
  | 0, _, _, _, _, _ => none
  | fuel + 1, bias, code, place, label, cs => do
    let (distance, rest) ← readDistance bias 36 1 0 cs
    let count := label.length + 1
    let next := code + (place + distance) / count
    let spot := (place + distance) % count
    let c ← char? next
    takeOut fuel (adapted (label.all fun c => c.toNat < 128) distance count) next (spot + 1)
      (label.take spot ++ c :: label.drop spot) rest

/-- The label that ASCII characters write. -/
def decode? (cs : List Char) : Option (List Char) :=
  let after := (cs.reverse.takeWhile (· != '-')).reverse
  takeOut (cs.length + 1) 72 128 0 (cs.take (cs.length - after.length - 1)) after

end CrmAutomation.Text.Punycode
