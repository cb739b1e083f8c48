import CrmAutomation.Crypto.Base64Url
import CrmAutomation.Crypto.Hmac
import CrmAutomation.Event.Basic

/-!
# Signed webhooks

The receiver of a webhook can tell that it comes from the engine and was not altered: the
headers carry the keyed digest of the time stamp, a point and the body. `Signature.headers`
signs a body, `Signature.verify` checks one against the clock. The delivery id of a workflow's
webhook is the same on every attempt, so that receivers can drop repetitions.
-/

namespace CrmAutomation.Signature

def signatureHeader : String := "X-Automation-Signature"

def timestampHeader : String := "X-Automation-Timestamp"

def deliveryHeader : String := "X-Automation-Delivery"

/-- What a signature starts with. -/
def scheme : String := "sha256="

/-- How many seconds a time stamp may be off: a whole number of any size, or a double. -/
inductive Tolerance where
  | whole (seconds : Int)
  | double (seconds : Double)
  deriving DecidableEq, Repr

/-- Whether an age is beyond a tolerance. -/
def Tolerance.isBelow : Tolerance → Double → Bool
  | .whole seconds, age => Double.intLt seconds age
  | .double seconds, age => Double.lt seconds age

/-- How many seconds a time stamp may be off when the receiver does not say. -/
def defaultTolerance : Tolerance := .whole 300

/-- What is signed. -/
def message (timestamp : Int) (body : Bytes) : Bytes :=
  Bytes.ofText (toString timestamp ++ ".") ++ body

/-- The digest of a body under a secret. -/
def digest (secret : String) (timestamp : Int) (body : Bytes) : String :=
  Crypto.hexText (Crypto.Sha2.sha256.keyed (Bytes.ofText secret) (message timestamp body))

/-- The headers of a body signed at `timestamp`. -/
def headersAt (timestamp : Int) (deliveryId secret : String) (body : Bytes) :
    List (String × String) :=
  [(signatureHeader, scheme ++ digest secret timestamp body),
    (timestampHeader, toString timestamp),
    (deliveryHeader, deliveryId),
    ("Content-Type", "application/json")]

/-- The headers of a signed body. A time stamp that is missing or zero is the present second `now`,
an id that is missing or empty is `freshId`. -/
def headers (freshId : String) (now : Int) (timestamp : Option Int) (deliveryId : Option String)
    (secret : String) (body : Bytes) : List (String × String) :=
  let id := deliveryId.getD ""
  let time := timestamp.getD 0
  headersAt (if time = 0 then now else time) (if id = "" then freshId else id) secret body

/-- The number of seconds from `timestamp` to `now`, without its sign. -/
def age (now : Double) (timestamp : Int) : Except Failure Double :=
  let time := Double.ofInt timestamp
  if time.isFinite then .ok (now.sub time).abs
  else .error (.system .overflow "int too large to convert to float")

/-- Whether a signature is that of the digest. -/
def matchesDigest (expected signature : String) : Except Failure Bool :=
  let received := signature.toList.drop scheme.length
  if !scheme.toList.isPrefixOf signature.toList then .ok false
  else if received.any fun c => 128 ≤ c.toNat then
    .error (.system .typeError "comparing strings with non-ASCII characters is not supported")
  else .ok (expected.toList == received)

/-- Whether a body was signed with the secret at a time that is within `tolerance` seconds of
`now`. The headers are taken as they came; what is no number of seconds is refused. -/
def verify (now : Double) (tolerance : Tolerance) (secret : String) (body : Bytes)
    (signature timestamp : Value) : Except Failure Bool :=
  match Event.wholeNumber timestamp with
  | .error (.system .overflow m) => .error (.system .overflow m)
  | .error _ => .ok false
  | .ok time => do
    if tolerance.isBelow (← age now time) then return false
    match signature with
    | .str s => if s = "" then return false else matchesDigest (digest secret time body) s
    | v =>
      if v.isTruthy then
        .error (.system .attributeError
          ("'" ++ v.kindName ++ "' object has no attribute 'startswith'"))
      else return false

/-! ## Secrets -/

/-- What a generated secret starts with. -/
def secretLead : String := "whsec_"

/-- How many random bytes a generated secret is made from. -/
def secretBytes : Nat := 32

/-- The secret made from random bytes. -/
def secretOf (random : Bytes) : String := secretLead ++ Crypto.Base64Url.encode random

end CrmAutomation.Signature
