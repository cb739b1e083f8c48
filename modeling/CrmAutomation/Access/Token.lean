import CrmAutomation.Access.Secret
import CrmAutomation.Crypto.Base64Url
import CrmAutomation.Crypto.Hmac
import CrmAutomation.Event.Basic
import CrmAutomation.Json.Document
import CrmAutomation.Json.Writer
import CrmAutomation.Misfit

/-!
# Access tokens

A token names an operator and the organization that the operator acts in. It consists of a
header, claims and a signature in base64, separated by points. `Token.issue` makes one and
`Token.verify` reads one back: it is `Rejection.invalid` unless it is signed with the key, and
it is rejected when a required claim is missing, before its time and after it.
-/

namespace CrmAutomation

/-- An operator, as a verified token gives it. -/
structure Identity where
  user : String
  email : String
  organization : String
  expires : Instant
  issued : Instant
  kind : String
  deriving Inhabited

namespace Token

/-- Why a token is rejected. -/
inductive Rejection where
  | invalid
  | missing (claim : String)
  | expired
  deriving DecidableEq, Repr

def Rejection.detail : Rejection → String
  | .invalid => "Invalid token"
  | .missing claim => "Token is missing the " ++ claim ++ " claim"
  | .expired => "Token has expired"

/-- A token that is rejected, or one whose claims cannot be looked at. -/
inductive Denial where
  | rejected (reason : Rejection)
  | failed (failure : Failure)

/-! ## Signing -/

/-- The functions that sign tokens, and the one that leaves them unsigned. -/
inductive Algorithm where
  | hs256
  | hs384
  | hs512
  | unsigned
  deriving DecidableEq, Repr

namespace Algorithm

def all : List Algorithm := [.hs256, .hs384, .hs512, .unsigned]

def text : Algorithm → String
  | .hs256 => "HS256"
  | .hs384 => "HS384"
  | .hs512 => "HS512"
  | .unsigned => "none"

/-- The signature of a message under a key. -/
def sign (a : Algorithm) (key message : Bytes) : Bytes :=
  match a with
  | .hs256 => Crypto.Sha2.sha256.keyed key message
  | .hs384 => Crypto.Sha2.sha384.keyed key message
  | .hs512 => Crypto.Sha2.sha512.keyed key message
  | .unsigned => []

end Algorithm

/-- A value in compact JSON and base64. -/
def segment (v : Value) : String :=
  Crypto.Base64Url.encode (Bytes.ofText (Json.write .compact v))

/-- The token of some claims. -/
def encode (algorithm : Algorithm) (key : String) (claims : Members) : String :=
  let signed := segment (.obj [("alg", .str algorithm.text), ("typ", .str "JWT")]) ++ "."
    ++ segment (.obj claims)
  signed ++ "." ++ Crypto.Base64Url.encode
    (algorithm.sign (Bytes.ofText key) (Bytes.ofText signed))

/-- The names of algorithms that sign with key pairs, which are known but not at hand. -/
def pairAlgorithms : List String :=
  ["RS256", "RS384", "RS512", "ES256", "ES256K", "ES384", "ES521", "ES512", "PS256", "PS384",
    "PS512", "EdDSA"]

/-- An algorithm that cannot be used. -/
def unsupported (name : String) : Failure :=
  .system .unsupported (if name ∈ pairAlgorithms then
      "Algorithm '" ++ name ++ "' could not be found. Do you have cryptography installed?"
    else "Algorithm not supported")

/-- The token of some claims, signed with a secret. -/
def signWith (algorithm : Algorithm) (key : String) (claims : Members) : Except Failure String :=
  match Secret.refusal? key with
  | some f => .error f
  | none => .ok (encode algorithm key claims)

/-- The token of some claims, signed as an algorithm of some name does. A token without a signature
has no key, and the issuer must be a text. -/
def ofClaims (algorithm : String) (key : Option String) (claims : Members) : Except Failure String :=
  if Members.has "iss" claims && (Members.getD "iss" claims).str?.isNone then
    .error (.system .typeError "Issuer (iss) must be a string.")
  else match findByText Algorithm.text Algorithm.all algorithm with
    | none => .error (unsupported algorithm)
    | some .unsigned =>
      if key.getD "" = "" then .ok (encode .unsigned "" claims)
      else .error (.system .invalidKey "When alg = \"none\", key value must be None.")
    | some a =>
      match key with
      | some k => signWith a k claims
      | none => .error (.system .typeError "Expected a string value")

/-- The kind of tokens that give access. -/
def accessKind : String := "access"

/-- How long a token is valid when nothing is said. -/
def defaultLifetimeMinutes : Int := 1440

/-- The token of an operator, valid for `lifetime` seconds; zero stands for the default. -/
def issue (key : String) (now : Instant) (defaultMinutes : Int) (user email organization : String)
    (lifetime : Option Int) : Except Failure String :=
  let given := lifetime.getD 0
  let seconds := if given = 0 then defaultMinutes * 60 else given
  let expires := (now.micros : Int) + seconds * Instant.microsPerSecond
  if 0 ≤ expires ∧ expires < Instant.limit then
    signWith .hs256 key [("sub", .str user), ("email", .str email), ("org_id", .str organization),
      ("type", .str accessKind), ("iat", .int now.unixSeconds),
      ("exp", .int (Instant.unixSeconds ⟨expires.toNat⟩))]
  else .error (.system .overflow "date value out of range")

/-! ## Reading -/

/-- The bytes before and after the last point. -/
def splitLast (bytes : Bytes) : Option (Bytes × Bytes) :=
  let last := (bytes.reverse.takeWhile (· != 46)).reverse
  if last.length = bytes.length then none
  else some (bytes.take (bytes.length - last.length - 1), last)

/-- The bytes before and after the first point. -/
def splitFirst (bytes : Bytes) : Option (Bytes × Bytes) :=
  let first := bytes.takeWhile (· != 46)
  if first.length = bytes.length then none else some (first, bytes.drop (first.length + 1))

/-- Something that a token needs, or the rejection of one without it. -/
def needed {α : Type} : Option α → Except Denial α
  | some a => .ok a
  | none => .error (.rejected .invalid)

/-- The object that the bytes of a segment write. One that is nested too deep cannot be looked
at. -/
def object (bytes : Bytes) : Except Denial Members :=
  match Json.readBytes bytes with
  | .ok (.obj ms) => .ok ms
  | .ok _ => .error (.rejected .invalid)
  | .error fault =>
    match fault.failure with
    | .system .recursion m => .error (.failed (.system .recursion m))
    | _ => .error (.rejected .invalid)

/-- The extensions of headers that are known. -/
def extensions : List String := ["b64"]

/-- Whether the extensions that a header calls critical are known, and are there. -/
def knowsCritical (header : Members) : Bool :=
  match Members.get? "crit" header with
  | none => true
  | some (.list (x :: xs)) => (x :: xs).all fun v =>
      v.str?.any fun name => extensions.contains name && Members.has name header
  | some _ => false

/-- Whether a header can be accepted. -/
def acceptsHeader (header : Members) : Bool :=
  (match Members.get? "kid" header with
    | none => true
    | some (.str _) => true
    | some _ => false)
  && knowsCritical header
  && (match Members.get? "b64" header with
    | some (.bool false) => false
    | _ => true)
  && (match Members.get? "alg" header with
    | some (.str a) => a == Algorithm.hs256.text
    | _ => false)

/-- The claims of a token that is signed with the key. -/
def signedClaims (key : String) (token : String) : Except Denial Members := do
  let (signed, signature) ← needed (splitLast (Bytes.ofText token))
  let (first, second) ← needed (splitFirst signed)
  let header ← object (← needed (Crypto.Base64Url.decode? first))
  let claims ← needed (Crypto.Base64Url.decode? second)
  let given ← needed (Crypto.Base64Url.decode? signature)
  if !acceptsHeader header then throw (.rejected .invalid)
  match Secret.refusal? key with
  | some f => throw (.failed f)
  | none =>
    if Algorithm.hs256.sign (Bytes.ofText key) signed == given then object claims
    else throw (.rejected .invalid)

/-! ## Checking -/

/-- The claims that a token must have, in the order in which they are looked for. -/
def requiredClaims : List String := ["sub", "email", "org_id", "exp", "iat"]

def missing? (claims : Members) : Option String :=
  requiredClaims.find? fun c => (Members.getD c claims).isNull

/-- The number of seconds that a claim gives. -/
def seconds (v : Value) : Except Denial Int := needed (Event.wholeNumber v).toOption

/-- Whether `seconds` is after the clock. -/
def isLater (seconds : Int) (now : Instant) : Bool :=
  decide ((now.micros : Int) < (Instant.epoch.micros : Int) + seconds * Instant.microsPerSecond)

/-- Checks the claims about time. A token is valid from the second of issue on and until just
before the second of expiry. -/
def checkTimes (now : Instant) (claims : Members) : Except Denial Unit := do
  if isLater (← seconds (Members.getD "iat" claims)) now then throw (.rejected .invalid)
  if Members.has "nbf" claims then
    if isLater (← seconds (Members.getD "nbf" claims)) now then throw (.rejected .invalid)
  if isLater (← seconds (Members.getD "exp" claims)) now then return ()
  throw (.rejected .expired)

/-- Checks the claims about the audience, the operator and the token's id. -/
def checkNames (claims : Members) : Except Denial Unit := do
  if (Members.getD "aud" claims).isTruthy then throw (.rejected .invalid)
  if (Members.getD "sub" claims).str?.isNone then throw (.rejected .invalid)
  if Members.has "jti" claims && (Members.getD "jti" claims).str?.isNone then
    throw (.rejected .invalid)

/-- The instant that a number of microseconds since the epoch stands for. What is no instant may
have seconds that do not fit, a year that does not fit, or a year without a calendar. -/
def instantAt (micros : Int) : Except Failure Instant :=
  let seconds := micros.fdiv 1000000
  let year := Instant.yearOf seconds
  match Instant.ofUnixMicros? micros with
  | some t => .ok t
  | none =>
    if seconds < -Int.pow 2 63 ∨ Int.pow 2 63 ≤ seconds then
      .error (.system .overflow "timestamp out of range for platform time_t")
    else if year - 1900 < -Int.pow 2 31 ∨ Int.pow 2 31 ≤ year - 1900 then
      .error (.system .osError "[Errno 75] Value too large for defined data type")
    else .error (.system .valueError
      ("year " ++ toString (if Int.pow 2 31 ≤ year then year - Int.pow 2 32 else year) ++ " is out of range"))

/-- The instant that a number of seconds stands for. -/
def instant (v : Value) : Except Failure Instant :=
  match v with
  | .int i => instantAt (i * 1000000)
  | .bool b => instantAt (if b then 1000000 else 0)
  | .float .nan => .error (.system .valueError "Invalid value NaN (not a number)")
  | .float (.infinite _) =>
    .error (.system .overflow "timestamp out of range for platform time_t")
  | .float (.finite negative units) =>
    let n : Int := Double.roundHalfEven (units * 1000000) Double.one
    instantAt (if negative then -n else n)
  | v => .error (.system .typeError
      ("'" ++ v.kindName ++ "' object cannot be interpreted as an integer"))

/-- The text of a claim, or what is wrong with it. -/
def textOf (claim : String) (v : Value) : Except Misfit String :=
  match v with
  | .str s => .ok s
  | v => .error (.notText claim v)

/-- The operator that checked claims describe. -/
def identity (claims : Members) : Except Failure Identity := do
  let expires ← instant (Members.getD "exp" claims)
  let issued ← instant (Members.getD "iat" claims)
  let user := textOf "sub" (Members.getD "sub" claims)
  let email := textOf "email" (Members.getD "email" claims)
  let organization := textOf "org_id" (Members.getD "org_id" claims)
  let kind := textOf "type" ((Members.get? "type" claims).getD (.str ""))
  match user, email, organization, kind with
  | .ok user, .ok email, .ok organization, .ok kind =>
    return ⟨user, email, organization, expires, issued, kind⟩
  | _, _, _, _ =>
    throw (Misfit.failure "TokenPayload" ([user, email, organization, kind].filterMap fun r =>
      match r with
      | .error m => some m
      | .ok _ => none))

/-- The operator that a token names. -/
def verify (key : String) (now : Instant) (token : String) : Except Denial Identity := do
  let claims ← signedClaims key token
  match missing? claims with
  | some c => throw (.rejected (.missing c))
  | none =>
    checkTimes now claims
    checkNames claims
    (identity claims).mapError .failed

end Token

end CrmAutomation
