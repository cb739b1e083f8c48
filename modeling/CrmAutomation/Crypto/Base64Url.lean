import CrmAutomation.Crypto.Sha2

/-!
# Base64 for URLs

`Base64Url.encode` writes bytes in the alphabet that is safe in URLs, without padding.
`Base64Url.decode?` reads exactly what is written that way: no other character may stand in the
text, and no bit may be left over.
-/

namespace CrmAutomation.Crypto.Base64Url

/-- The character of six bits. -/
def digit (n : Nat) : Char :=
  Char.ofNat (if n < 26 then 65 + n else if n < 52 then 71 + n else if n < 62 then n - 4
    else if n = 62 then 45 else 95)

/-- The six bits of a character. -/
def value? (b : UInt8) : Option Nat :=
  let n := b.toNat
  if 65 ≤ n ∧ n ≤ 90 then some (n - 65)
  else if 97 ≤ n ∧ n ≤ 122 then some (n - 71)
  else if 48 ≤ n ∧ n ≤ 57 then some (n + 4)
  else if n = 45 then some 62
  else if n = 95 then some 63
  else none

/-- The characters of bytes, three bytes making four characters. -/
def encodeChars : Bytes → List Char
  | [] => []
  | [a] => [digit (a.toNat / 4), digit (a.toNat % 4 * 16)]
  | [a, b] => [digit (a.toNat / 4), digit (a.toNat % 4 * 16 + b.toNat / 16),
      digit (b.toNat % 16 * 4)]
  | a :: b :: c :: rest =>
    digit (a.toNat / 4) :: digit (a.toNat % 4 * 16 + b.toNat / 16)
      :: digit (b.toNat % 16 * 4 + c.toNat / 64) :: digit (c.toNat % 64) :: encodeChars rest

def encode (bytes : Bytes) : String := String.ofList (encodeChars bytes)

/-- The common spelling outside URLs: a plus sign and a slash for the last two values, and padding
to whole groups of four. -/
def encodePadded (bytes : Bytes) : String :=
  let cs := (encodeChars bytes).map fun c => if c = '-' then '+' else if c = '_' then '/' else c
  String.ofList (cs ++ List.replicate ((4 - cs.length % 4) % 4) '=')

/-- The bytes of characters, four characters making three bytes. -/
def decode? : Bytes → Option Bytes
  | [] => some []
  | [_] => none
  | [a, b] => do
    let (x, y) := (← value? a, ← value? b)
    if y % 16 = 0 then some [UInt8.ofNat (x * 4 + y / 16)] else none
  | [a, b, c] => do
    let (x, y, z) := (← value? a, ← value? b, ← value? c)
    if z % 4 = 0 then
      some [UInt8.ofNat (x * 4 + y / 16), UInt8.ofNat (y % 16 * 16 + z / 4)]
    else none
  | a :: b :: c :: d :: rest => do
    let (x, y, z, w) := (← value? a, ← value? b, ← value? c, ← value? d)
    return UInt8.ofNat (x * 4 + y / 16) :: UInt8.ofNat (y % 16 * 16 + z / 4)
      :: UInt8.ofNat (z % 4 * 64 + w) :: (← decode? rest)

end CrmAutomation.Crypto.Base64Url
