import CrmAutomation.Text.Bytes

/-!
# SHA-2 digests

The digests SHA-256, SHA-384 and SHA-512 of a list of bytes. The three differ in their word size,
rotations, starting words and length, which are the fields of `Sha2`. The round constants are the
first bits of the fractional parts of the cube roots of the first primes, the starting words
those of square roots; `rootFraction` computes both.
-/

namespace CrmAutomation

namespace Crypto

/-! ## Constants -/

/-- The largest number that is at most `found + Nat.pow 2 bits - 1` and whose `k`-th power is at most
`n`. -/
def rootFrom (k n : Nat) : Nat → Nat → Nat
  | 0, found => found
  | bits + 1, found =>
    let next := found + Nat.pow 2 bits
    rootFrom k n bits (if Nat.pow next k ≤ n then next else found)

/-- The first `w` bits after the point of the `k`-th root of a number below 512. -/
def rootFraction (w k n : Nat) : BitVec w :=
  BitVec.ofNat w (rootFrom k (n * Nat.pow 2 (k * w)) (w + 9) 0)

def isPrime (n : Nat) : Bool := 2 ≤ n && (List.range n).all fun d => d < 2 || n % d != 0

/-- The first eighty primes. -/
def primes : List Nat := (List.range 410).filter isPrime

/-! ## Variants -/

/-- Three amounts that a word is rotated by; the last may be a shift. -/
structure Mix where
  first : Nat
  second : Nat
  last : Nat
  shifts : Bool

/-- The exclusive or of the rotations of a word. -/
def Mix.apply {w : Nat} (m : Mix) (x : BitVec w) : BitVec w :=
  x.rotateRight m.first ^^^ x.rotateRight m.second
    ^^^ (if m.shifts then x >>> m.last else x.rotateRight m.last)

/-- A SHA-2 function with words of `w` bits. -/
structure Sha2 (w : Nat) where
  rounds : Nat
  bigSigma0 : Mix
  bigSigma1 : Mix
  smallSigma0 : Mix
  smallSigma1 : Mix
  initial : List (BitVec w)
  digestBytes : Nat

namespace Sha2

def sha256 : Sha2 32 where
  rounds := 64
  bigSigma0 := ⟨2, 13, 22, false⟩
  bigSigma1 := ⟨6, 11, 25, false⟩
  smallSigma0 := ⟨7, 18, 3, true⟩
  smallSigma1 := ⟨17, 19, 10, true⟩
  initial := (primes.take 8).map (rootFraction 32 2)
  digestBytes := 32

def sha512 : Sha2 64 where
  rounds := 80
  bigSigma0 := ⟨28, 34, 39, false⟩
  bigSigma1 := ⟨14, 18, 41, false⟩
  smallSigma0 := ⟨1, 8, 7, true⟩
  smallSigma1 := ⟨19, 61, 6, true⟩
  initial := (primes.take 8).map (rootFraction 64 2)
  digestBytes := 64

/-- SHA-512 from other starting words, cut to 48 bytes. -/
def sha384 : Sha2 64 :=
  { sha512 with
    initial := ((primes.drop 8).take 8).map (rootFraction 64 2)
    digestBytes := 48 }

variable {w : Nat}

/-- The number of bytes in a block of sixteen words. -/
def blockBytes (_ : Sha2 w) : Nat := 2 * w

def roundConstants (h : Sha2 w) : List (BitVec w) :=
  (primes.take h.rounds).map (rootFraction w 3)

/-! ## Bytes and words -/

/-- The number that bytes write, the highest first. -/
def number (bytes : Bytes) : Nat := bytes.foldl (fun n b => n * 256 + b.toNat) 0

/-- A number in `count` bytes, the highest first. -/
def bytesOf (n : Nat) : Nat → Bytes
  | 0 => []
  | count + 1 => UInt8.ofNat (n / Nat.pow 256 count) :: bytesOf n count

/-- The message with a one bit, zeros and its length in bits, in whole blocks. -/
def pad (h : Sha2 w) (message : Bytes) : Bytes :=
  let block := h.blockBytes
  let lengthBytes := w / 4
  let used := message.length + 1 + lengthBytes
  message ++ 0x80 :: List.replicate ((block - used % block) % block) 0
    ++ bytesOf (8 * message.length) lengthBytes

/-- The first `count` runs of `size` bytes. -/
def chunks (size : Nat) : Nat → Bytes → List Bytes
  | 0, _ => []
  | count + 1, bytes => bytes.take size :: chunks size count (bytes.drop size)

/-- The sixteen words of a block. -/
def words (block : Bytes) : List (BitVec w) :=
  (chunks (w / 8) 16 block).map fun b => BitVec.ofNat w (number b)

/-! ## Compression -/

/-- The message schedule, its latest word first, with `count` more words. -/
def extend (h : Sha2 w) : Nat → List (BitVec w) → List (BitVec w)
  | 0, ws => ws
  | count + 1, ws =>
    let next := h.smallSigma1.apply (ws.getD 1 0) + ws.getD 6 0
      + h.smallSigma0.apply (ws.getD 14 0) + ws.getD 15 0
    extend h count (next :: ws)

/-- The working words. -/
structure Working (w : Nat) where
  a : BitVec w
  b : BitVec w
  c : BitVec w
  d : BitVec w
  e : BitVec w
  f : BitVec w
  g : BitVec w
  h : BitVec w

def Working.ofList (ws : List (BitVec w)) : Working w :=
  ⟨ws.getD 0 0, ws.getD 1 0, ws.getD 2 0, ws.getD 3 0, ws.getD 4 0, ws.getD 5 0, ws.getD 6 0,
    ws.getD 7 0⟩

def Working.toList (s : Working w) : List (BitVec w) := [s.a, s.b, s.c, s.d, s.e, s.f, s.g, s.h]

/-- One round with a round constant and a word of the schedule. -/
def round (h : Sha2 w) (s : Working w) (constant word : BitVec w) : Working w :=
  let choice := (s.e &&& s.f) ^^^ (~~~s.e &&& s.g)
  let majority := (s.a &&& s.b) ^^^ (s.a &&& s.c) ^^^ (s.b &&& s.c)
  let t1 := s.h + h.bigSigma1.apply s.e + choice + constant + word
  let t2 := h.bigSigma0.apply s.a + majority
  ⟨t1 + t2, s.a, s.b, s.c, s.d + t1, s.e, s.f, s.g⟩

/-- The chaining words after a block. -/
def compress (h : Sha2 w) (constants chain : List (BitVec w)) (block : Bytes) : List (BitVec w) :=
  let schedule := (h.extend (h.rounds - 16) (words block).reverse).reverse
  let final := (constants.zip schedule).foldl (fun s p => h.round s p.1 p.2) (Working.ofList chain)
  List.zipWith (· + ·) chain final.toList

/-- The digest of a message. -/
def digest (h : Sha2 w) (message : Bytes) : Bytes :=
  let padded := h.pad message
  let blocks := chunks h.blockBytes (padded.length / h.blockBytes) padded
  let final := blocks.foldl (h.compress h.roundConstants) h.initial
  (final.flatMap fun x => bytesOf x.toNat (w / 8)).take h.digestBytes

end Sha2

end Crypto

end CrmAutomation
