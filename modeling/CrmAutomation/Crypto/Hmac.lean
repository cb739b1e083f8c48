import CrmAutomation.Crypto.Sha2

/-!
# Keyed digests

`Sha2.keyed` is the keyed digest of a message, made of two digests of the key, masked, and the
message. `hexText` writes a digest in lower-case hexadecimal.
-/

namespace CrmAutomation.Crypto

/-- Every byte of a key combined with a mask. -/
def mask (value : UInt8) (key : Bytes) : Bytes := key.map (· ^^^ value)

/-- A key in one whole block; a longer one is digested first. -/
def Sha2.blockKey {w : Nat} (h : Sha2 w) (key : Bytes) : Bytes :=
  let short := if h.blockBytes < key.length then h.digest key else key
  short ++ List.replicate (h.blockBytes - short.length) 0

/-- The digest of a message under a key. -/
def Sha2.keyed {w : Nat} (h : Sha2 w) (key message : Bytes) : Bytes :=
  let k := h.blockKey key
  h.digest (mask 0x5c k ++ h.digest (mask 0x36 k ++ message))

/-- The hexadecimal digit of a number below sixteen. -/
def hexDigit (n : Nat) : Char := Char.ofNat (if n < 10 then 48 + n else 87 + n)

/-- Bytes as pairs of hexadecimal digits. -/
def hexText (bytes : Bytes) : String :=
  String.ofList (bytes.flatMap fun b => [hexDigit (b.toNat / 16), hexDigit (b.toNat % 16)])

end CrmAutomation.Crypto
