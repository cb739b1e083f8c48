/-!
# Bytes and the texts they write

A text is sent as bytes in UTF-8. `Bytes.decode` reads bytes in UTF-8, UTF-16 or UTF-32 and says
where it fails; `Bytes.lossyText` reads UTF-8 and puts the replacement character for what cannot
be read.
-/

namespace CrmAutomation

/-- A list of bytes. -/
abbrev Bytes := List UInt8

/-- The bytes of a text in UTF-8. -/
def Bytes.ofText (s : String) : Bytes := s.toUTF8.data.toList

/-- The text that bytes write in UTF-8, if they do. -/
def Bytes.text? (bytes : Bytes) : Option String := String.fromUTF8? ⟨bytes.toArray⟩

namespace Bytes

/-! ## One character -/

/-- What cannot be read: how many bytes, and why. -/
structure Flaw where
  length : Nat
  reason : String
  deriving DecidableEq, Repr

/-- What stands for a character that cannot be read, or for half a surrogate pair. -/
def replacement : Char := Char.ofNat 0xFFFD

def brokenStart : Flaw := ⟨1, "invalid start byte"⟩

/-- Continuation bytes are missing: another byte stands there, or none. -/
def broken (length : Nat) (rest : Bytes) : Flaw :=
  ⟨length, if rest.isEmpty then "unexpected end of data" else "invalid continuation byte"⟩

/-- Whether a byte may continue a character; the bounds are those of the byte after the first. -/
def isContinuation (low high : Nat) (b : UInt8) : Bool :=
  decide (low ≤ b.toNat) && decide (b.toNat ≤ high)

/-- The character whose continuation bytes are `rest`. `known` is the value so far, `read` the
number of bytes read, and `missing` that of the bytes to come. -/
def utf8Tail (known read low high : Nat) : Nat → Bytes → Except Flaw (Nat × Nat)
  | 0, _ => .ok (known, read)
  | missing + 1, rest =>
    match rest with
    | b :: more =>
      if isContinuation low high b then
        utf8Tail (known * 64 + b.toNat % 64) (read + 1) 0x80 0xBF missing more
      else .error (broken read rest)
    | [] => .error (broken read rest)

/-- The code point that starts with a byte, and its length. -/
def utf8Code (b : UInt8) (rest : Bytes) : Except Flaw (Nat × Nat) :=
  let n := b.toNat
  if n < 0x80 then .ok (n, 1)
  else if n < 0xC2 then .error brokenStart
  else if n < 0xE0 then utf8Tail (n - 0xC0) 1 0x80 0xBF 1 rest
  else if n < 0xF0 then
    utf8Tail (n - 0xE0) 1 (if n = 0xE0 then 0xA0 else 0x80) (if n = 0xED then 0x9F else 0xBF) 2 rest
  else if n < 0xF5 then
    utf8Tail (n - 0xF0) 1 (if n = 0xF0 then 0x90 else 0x80) (if n = 0xF4 then 0x8F else 0xBF) 3 rest
  else .error brokenStart

/-- Whether bytes write half a surrogate pair as if it were a character. -/
def isHalfPair (b : UInt8) (rest : Bytes) : Bool :=
  match b.toNat, rest with
  | 0xED, x :: y :: _ => isContinuation 0xA0 0xBF x && isContinuation 0x80 0xBF y
  | _, _ => false

/-- The next character in UTF-8 and its length; half a surrogate pair is let through. -/
def utf8Char (b : UInt8) (rest : Bytes) : Except Flaw (Char × Nat) :=
  if isHalfPair b rest then .ok (replacement, 3)
  else match utf8Code b rest with
    | .ok (n, length) => .ok (Char.ofNat n, length)
    | .error f => .error f

/-- The characters of bytes in UTF-8, the first few of which are passed over. -/
def lossyFrom : Nat → Bytes → List Char
  | _, [] => []
  | skipped + 1, _ :: rest => lossyFrom skipped rest
  | 0, b :: rest =>
    match utf8Code b rest with
    | .ok (n, length) => Char.ofNat n :: lossyFrom (length - 1) rest
    | .error f => replacement :: lossyFrom (f.length - 1) rest

/-- The text that bytes write in UTF-8, flaws being replaced. -/
def lossyText (bytes : Bytes) : String := String.ofList (lossyFrom 0 bytes)

/-! ## Encodings -/

/-- How a text is written in bytes, `little` meaning that the low byte of a unit comes first. -/
inductive Encoding where
  | utf8
  | utf16 (little : Bool)
  | utf32 (little : Bool)
  deriving DecidableEq, Repr

def Encoding.name : Encoding → String
  | .utf8 => "utf-8"
  | .utf16 little => if little then "utf-16-le" else "utf-16-be"
  | .utf32 little => if little then "utf-32-le" else "utf-32-be"

/-- The encoding of a document, known from the mark that it begins with, or else from where its
first characters, which are ASCII, have zero bytes; and the bytes after the mark. -/
def detect (bytes : Bytes) : Encoding × Bytes :=
  match bytes.map (·.toNat), bytes with
  | 0 :: 0 :: 0xFE :: 0xFF :: _, _ => (.utf32 false, bytes.drop 4)
  | 0xFF :: 0xFE :: 0 :: 0 :: _, _ => (.utf32 true, bytes.drop 4)
  | 0xFE :: 0xFF :: _, _ => (.utf16 false, bytes.drop 2)
  | 0xFF :: 0xFE :: _, _ => (.utf16 true, bytes.drop 2)
  | 0xEF :: 0xBB :: 0xBF :: _, _ => (.utf8, bytes.drop 3)
  | [0, _], _ => (.utf16 false, bytes)
  | [_, 0], _ => (.utf16 true, bytes)
  | 0 :: second :: _ :: _ :: _, _ => (if second = 0 then .utf32 false else .utf16 false, bytes)
  | _ :: 0 :: third :: fourth :: _, _ =>
    (if third = 0 ∧ fourth = 0 then .utf32 true else .utf16 true, bytes)
  | _, _ => (.utf8, bytes)

/-- Bytes that cannot be read: the first one and its place, with the flaw. -/
structure Fault where
  encoding : Encoding
  first : UInt8
  position : Nat
  flaw : Flaw
  deriving DecidableEq, Repr

/-- A fault in words. -/
def Fault.message (f : Fault) : String :=
  "'" ++ f.encoding.name ++ "' codec can't decode "
    ++ (if f.flaw.length = 1 then
        "byte 0x" ++ String.ofList ((Nat.toDigits 16 (f.first.toNat + 256)).drop 1)
          ++ " in position " ++ toString f.position
      else "bytes in position " ++ toString f.position ++ "-"
        ++ toString (f.position + f.flaw.length - 1))
    ++ ": " ++ f.flaw.reason

/-- The characters of bytes in UTF-8 from `position` on, the first few of which are passed over. -/
def utf8From (position : Nat) : Nat → Bytes → Except Fault (List Char)
  | _, [] => .ok []
  | skipped + 1, _ :: rest => utf8From (position + 1) skipped rest
  | 0, b :: rest =>
    match utf8Char b rest with
    | .ok (c, length) => (utf8From (position + 1) (length - 1) rest).map (c :: ·)
    | .error f => .error ⟨.utf8, b, position, f⟩

/-- The value of bytes, the first or the last one being the lowest. -/
def unitValue (little : Bool) (bytes : Bytes) : Nat :=
  (if little then bytes.reverse else bytes).foldl (fun n b => n * 256 + b.toNat) 0

def truncated (e : Encoding) (position : Nat) (b : UInt8) (length : Nat) : Fault :=
  ⟨e, b, position, ⟨length, "truncated data"⟩⟩

/-- The characters of UTF-16 units; `high` is half a pair that waits for its other half. -/
def utf16From (little : Bool) (position : Nat) (high : Option Nat) : Bytes → Except Fault (List Char)
  | [] => .ok (if high.isSome then [replacement] else [])
  | [b] => .error (truncated (.utf16 little) position b 1)
  | a :: b :: rest =>
    let unit := unitValue little [a, b]
    let next (high : Option Nat) := utf16From little (position + 2) high rest
    let pending := if high.isSome then [replacement] else []
    if 0xD800 ≤ unit ∧ unit < 0xDC00 then (next (some unit)).map (pending ++ ·)
    else if 0xDC00 ≤ unit ∧ unit < 0xE000 then
      match high with
      | some h =>
        (next none).map (Char.ofNat (0x10000 + (h - 0xD800) * 0x400 + (unit - 0xDC00)) :: ·)
      | none => (next none).map (replacement :: ·)
    else (next none).map (pending ++ Char.ofNat unit :: ·)

/-- The characters of UTF-32 units. -/
def utf32From (little : Bool) (position : Nat) : Bytes → Except Fault (List Char)
  | [] => .ok []
  | a :: b :: c :: d :: rest =>
    let unit := unitValue little [a, b, c, d]
    if 0x110000 ≤ unit then
      .error ⟨.utf32 little, a, position, ⟨4, "code point not in range(0x110000)"⟩⟩
    else
      let char := if 0xD800 ≤ unit ∧ unit < 0xE000 then replacement else Char.ofNat unit
      (utf32From little (position + 4) rest).map (char :: ·)
  | b :: rest => .error (truncated (.utf32 little) position b (rest.length + 1))

/-- The text of a document in whichever encoding it is written. -/
def decode (bytes : Bytes) : Except Fault String :=
  let (encoding, rest) := detect bytes
  let offset := match encoding with
    | .utf8 => 0
    | _ => bytes.length - rest.length
  (match encoding with
    | .utf8 => utf8From 0 0 rest
    | .utf16 little => utf16From little offset none rest
    | .utf32 little => utf32From little offset rest).map String.ofList

end Bytes

end CrmAutomation
