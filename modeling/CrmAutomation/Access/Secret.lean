import CrmAutomation.Failure
import CrmAutomation.Text.Naming

/-!
# Signing secrets

A secret that signs tokens is any text but the empty one. The public half of a key pair must not be
taken for a secret, since everybody knows it: `Secret.refusal?` refuses armoured keys and
certificates, and keys of the secure shell.
-/

namespace CrmAutomation.Secret

/-! ## Armour -/

/-- What armour can hold. -/
def armouredKinds : List String :=
  ["CERTIFICATE", "TRUSTED CERTIFICATE", "PRIVATE KEY", "PUBLIC KEY", "ENCRYPTED PRIVATE KEY",
    "OPENSSH PRIVATE KEY", "DSA PRIVATE KEY", "RSA PRIVATE KEY", "RSA PUBLIC KEY",
    "EC PRIVATE KEY", "DH PARAMETERS", "NEW CERTIFICATE REQUEST", "CERTIFICATE REQUEST",
    "SSH2 PUBLIC KEY", "SSH2 ENCRYPTED PRIVATE KEY", "X509 CRL"]

/-- What follows `word` at the beginning of `cs`. -/
def after? (word : String) (cs : List Char) : Option (List Char) :=
  if word.toList.isPrefixOf cs then some (cs.drop word.length) else none

/-- What follows a dash or a blank. -/
def afterDash? : List Char → Option (List Char)
  | '-' :: rest => some rest
  | ' ' :: rest => some rest
  | _ => none

/-- What follows a line of armour around `label`. -/
def afterMark? (label : String) (cs : List Char) : Option (List Char) := do
  let cs ← afterDash? (← after? "----" cs)
  let cs ← afterDash? (← after? label cs)
  after? "----" cs

/-- What follows the end of a line. -/
def afterLineEnd? : List Char → Option (List Char)
  | '\r' :: '\n' :: rest => some rest
  | '\n' :: rest => some rest
  | _ => none

/-- Whether armour around `kind` ends in a later line than the first. -/
def endsLater (kind : String) : List Char → Bool
  | '\n' :: rest => (afterMark? ("END " ++ kind) rest).isSome || endsLater kind rest
  | _ :: rest => endsLater kind rest
  | [] => false

/-- Whether armour around `kind`, with something in it, begins here. -/
def beginsHere (kind : String) (cs : List Char) : Bool :=
  match (afterMark? ("BEGIN " ++ kind) cs).bind afterLineEnd? with
  | some (_ :: body) => endsLater kind body
  | _ => false

/-- Whether armour is found somewhere in a text. -/
def isArmoured : List Char → Bool
  | [] => false
  | c :: rest => (armouredKinds.any fun kind => beginsHere kind (c :: rest)) || isArmoured rest

/-! ## Keys of the secure shell -/

/-- What keys of the secure shell begin with. -/
def shellKinds : List String :=
  ["ssh-ed25519", "ssh-rsa", "ssh-dss", "ecdsa-sha2-nistp256", "ecdsa-sha2-nistp384",
    "ecdsa-sha2-nistp521"]

def isShellKey (cs : List Char) : Bool := shellKinds.any fun kind => kind.toList.isPrefixOf cs

/-- Why a text is refused as a secret, if it is. -/
def refusal? (key : String) : Option Failure :=
  let cs := key.toList
  if cs.isEmpty then some (.system .invalidKey "HMAC key must not be empty.")
  else if isArmoured cs || isShellKey cs then
    some (.system .invalidKey ("The specified key is an asymmetric key or x509 certificate and"
      ++ " should not be used as an HMAC secret."))
  else none

end CrmAutomation.Secret
