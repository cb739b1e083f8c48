import CrmAutomation.Number.WholeText
import CrmAutomation.Retry
import CrmAutomation.Text.Case
import CrmAutomation.Text.Naming

/-!
# Settings

The settings of a deployment, read from named values. `Settings.read` starts from the defaults and
lists every value that cannot be read, in the order of `Settings.entries`.
-/

namespace CrmAutomation

/-- The settings of a deployment. -/
structure Settings where
  appName : String := "CRM Automation Engine"
  appVersion : String := "1.0.0"
  apiRoot : String := "/api/v1"
  environment : String := "development"
  databaseUrl : String := "sqlite+aiosqlite:///./automation.db"
  echoStatements : Bool := false
  poolSize : Int := 20
  poolOverflow : Int := 10
  poolTimeout : Int := 30
  busUrl : String := "redis://localhost:6379/0"
  secretKey : String := ""
  tokenMinutes : Int := 1440
  allowedOrigins : String := "http://localhost:3000,http://localhost:8080"
  pipelineUrl : String := "http://localhost:8100"
  messagingUrl : String := "http://localhost:8200"
  webhookUrl : String := "http://localhost:8300"
  serviceToken : String := ""
  signingSecret : String := ""
  serviceTimeout : Double := .ofInt 10
  actionTimeout : Double := .ofInt 30
  webhookTimeout : Double := .ofInt 10
  maxAttempts : Int := 5
  retryBaseDelay : Double := .ofInt 2
  retryMaxDelay : Double := .ofInt 60
  schedulerEnabled : Bool := true
  sweepInterval : Double := .ofInt 30
  batchSize : Int := 100
  maxConcurrency : Int := 10
  staleAfterSeconds : Int := 900
  maxChainDepth : Int := 3
  emitFollowUps : Bool := true
  busEnabled : Bool := false
  eventChannel : String := "crm.pipeline.events"
  logLevel : String := "INFO"
  logFormat : String := "json"

namespace Settings

/-! ## Reading one value -/

/-- Why a value cannot be read. -/
inductive Problem where
  | notText
  | notWhole
  | tooLong
  | fractional
  | infinite
  | notNumber
  | notFlag
  deriving DecidableEq, Repr

/-- The code of a problem. -/
def Problem.code : Problem → String
  | .notText => "string_type"
  | .notWhole => "int_parsing"
  | .tooLong => "int_parsing_size"
  | .fractional => "int_from_float"
  | .infinite => "finite_number"
  | .notNumber => "float_parsing"
  | .notFlag => "bool_parsing"

/-- The digits of a fraction after its point. -/
def fractionDigits : List Char → List Char
  | '.' :: rest => rest
  | _ => []

/-- The exponent after a mark; none is zero. -/
def exponentOf? : List Char → Option Int
  | [] => some 0
  | _ :: rest =>
    let (negative, ds) := Number.splitSign rest
    if ds.isEmpty || !ds.all Char.isDigit then none
    else
      let n : Int := Number.ofDigits (ds.map fun c => c.toNat - 48)
      some (if negative then -n else n)

/-- The number that characters write. -/
def numberOfChars? (cs : List Char) : Option Double :=
  let (negative, unsigned) := Number.splitSign cs
  let word := String.ofList (unsigned.map Char.toLower)
  if word = "inf" ∨ word = "infinity" then some (.infinite negative)
  else if word = "nan" then some .nan
  else
    let mantissa := unsigned.takeWhile fun c => c != 'e' && c != 'E'
    let whole := mantissa.takeWhile (· != '.')
    let fraction := fractionDigits (mantissa.drop whole.length)
    let ds := whole ++ fraction
    if ds.isEmpty || !ds.all Char.isDigit then none
    else (exponentOf? (unsigned.drop mantissa.length)).map fun e =>
      Double.ofDecimal negative (Number.ofDigits (ds.map fun c => c.toNat - 48))
        (e - fraction.length)

/-- The number that a text writes: spacing around it is ignored, or else single underscores in it. -/
def numberOfText? (s : String) : Option Double :=
  let cs := s.toList
  (numberOfChars? (Text.trimSpacing cs)).or (numberOfChars? (Number.withoutUnderscores cs))

/-- The words that stand for true. -/
def trueWords : List String := ["1", "t", "true", "y", "yes", "on"]

/-- The words that stand for false. -/
def falseWords : List String := ["0", "f", "false", "n", "no", "off"]

def flagOfText? (s : String) : Option Bool :=
  let word := String.ofList (s.toList.map Char.toLower)
  if word ∈ trueWords then some true else if word ∈ falseWords then some false else none

def readText : Value → Except Problem String
  | .str s => .ok s
  | _ => .error .notText

/-- Whole numbers that are given as doubles are below this. -/
def wholeLimit : Nat := Nat.pow 2 63

def readWhole : Value → Except Problem Int
  | .int i => .ok i
  | .bool b => .ok (if b then 1 else 0)
  | .float d =>
    match d.truncate? with
    | some i =>
      if !d.isWhole then .error .fractional
      else if i.natAbs < wholeLimit then .ok i
      else .error .tooLong
    | none => .error .infinite
  | .str s =>
    match Number.readWhole s with
    | .ok i => .ok i
    | .error .tooLong => .error .tooLong
    | .error .unreadable => .error .notWhole
  | _ => .error .notWhole

def readNumber : Value → Except Problem Double
  | .int i => if (Double.ofInt i).isFinite then .ok (.ofInt i) else .error .notNumber
  | .bool b => .ok (.ofInt (if b then 1 else 0))
  | .float d => .ok d
  | .str s => (numberOfText? s).elim (.error .notNumber) .ok
  | _ => .error .notNumber

def readFlag : Value → Except Problem Bool
  | .bool b => .ok b
  | .int 0 => .ok false
  | .int 1 => .ok true
  | .float d =>
    match d.truncate? with
    | some i => if d.isWhole && (i == 0 || i == 1) then .ok (i == 1) else .error .notFlag
    | none => .error .notFlag
  | .str s => (flagOfText? s).elim (.error .notFlag) .ok
  | _ => .error .notFlag

/-! ## Entries -/

/-- A setting by name: its value, and how to change it. -/
structure Entry where
  name : String
  value : Settings → Value
  update : Value → Except Problem (Settings → Settings)

def textEntry (name : String) (get : Settings → String) (set : String → Settings → Settings) : Entry :=
  ⟨name, fun s => .str (get s), fun v => (readText v).map set⟩

def wholeEntry (name : String) (get : Settings → Int) (set : Int → Settings → Settings) : Entry :=
  ⟨name, fun s => .int (get s), fun v => (readWhole v).map set⟩

def numberEntry (name : String) (get : Settings → Double) (set : Double → Settings → Settings) :
    Entry :=
  ⟨name, fun s => .float (get s), fun v => (readNumber v).map set⟩

def flagEntry (name : String) (get : Settings → Bool) (set : Bool → Settings → Settings) : Entry :=
  ⟨name, fun s => .bool (get s), fun v => (readFlag v).map set⟩

/-- Every setting. -/
def entries : List Entry := [
  textEntry "APP_NAME" appName fun v s => { s with appName := v },
  textEntry "APP_VERSION" appVersion fun v s => { s with appVersion := v },
  textEntry "API_V1_PREFIX" apiRoot fun v s => { s with apiRoot := v },
  textEntry "ENVIRONMENT" environment fun v s => { s with environment := v },
  textEntry "DATABASE_URL" databaseUrl fun v s => { s with databaseUrl := v },
  flagEntry "SQLALCHEMY_ECHO" echoStatements fun v s => { s with echoStatements := v },
  wholeEntry "DB_POOL_SIZE" poolSize fun v s => { s with poolSize := v },
  wholeEntry "DB_MAX_OVERFLOW" poolOverflow fun v s => { s with poolOverflow := v },
  wholeEntry "DB_POOL_TIMEOUT" poolTimeout fun v s => { s with poolTimeout := v },
  textEntry "REDIS_URL" busUrl fun v s => { s with busUrl := v },
  textEntry "SECRET_KEY" secretKey fun v s => { s with secretKey := v },
  wholeEntry "ACCESS_TOKEN_EXPIRE_MINUTES" tokenMinutes fun v s => { s with tokenMinutes := v },
  textEntry "ALLOWED_ORIGINS" allowedOrigins fun v s => { s with allowedOrigins := v },
  textEntry "PIPELINE_SERVICE_URL" pipelineUrl fun v s => { s with pipelineUrl := v },
  textEntry "MESSAGING_SERVICE_URL" messagingUrl fun v s => { s with messagingUrl := v },
  textEntry "WEBHOOK_SERVICE_URL" webhookUrl fun v s => { s with webhookUrl := v },
  textEntry "SERVICE_API_TOKEN" serviceToken fun v s => { s with serviceToken := v },
  textEntry "WEBHOOK_SIGNING_SECRET" signingSecret fun v s => { s with signingSecret := v },
  numberEntry "COLLABORATOR_TIMEOUT_SECONDS" serviceTimeout
    fun v s => { s with serviceTimeout := v },
  numberEntry "ACTION_TIMEOUT_SECONDS" actionTimeout fun v s => { s with actionTimeout := v },
  numberEntry "WEBHOOK_TIMEOUT_SECONDS" webhookTimeout fun v s => { s with webhookTimeout := v },
  wholeEntry "ACTION_MAX_ATTEMPTS" maxAttempts fun v s => { s with maxAttempts := v },
  numberEntry "RETRY_BASE_DELAY" retryBaseDelay fun v s => { s with retryBaseDelay := v },
  numberEntry "RETRY_MAX_DELAY" retryMaxDelay fun v s => { s with retryMaxDelay := v },
  flagEntry "SCHEDULER_ENABLED" schedulerEnabled fun v s => { s with schedulerEnabled := v },
  numberEntry "SCHEDULER_SWEEP_INTERVAL_SECONDS" sweepInterval
    fun v s => { s with sweepInterval := v },
  wholeEntry "SCHEDULER_BATCH_SIZE" batchSize fun v s => { s with batchSize := v },
  wholeEntry "SCHEDULER_MAX_CONCURRENCY" maxConcurrency fun v s => { s with maxConcurrency := v },
  wholeEntry "RUN_STALE_AFTER_SECONDS" staleAfterSeconds
    fun v s => { s with staleAfterSeconds := v },
  wholeEntry "MAX_TRIGGER_CHAIN_DEPTH" maxChainDepth fun v s => { s with maxChainDepth := v },
  flagEntry "EMIT_CASCADE_EVENTS" emitFollowUps fun v s => { s with emitFollowUps := v },
  flagEntry "EVENT_BUS_ENABLED" busEnabled fun v s => { s with busEnabled := v },
  textEntry "EVENT_CHANNEL" eventChannel fun v s => { s with eventChannel := v },
  textEntry "LOG_LEVEL" logLevel fun v s => { s with logLevel := v },
  textEntry "LOG_FORMAT" logFormat fun v s => { s with logFormat := v }]

/-- The values that cannot be read, in the order of the entries. -/
def problems (given : Members) : List (String × Problem) :=
  entries.filterMap fun e =>
    match Members.get? e.name given with
    | none => none
    | some v =>
      match e.update v with
      | .error p => some (e.name, p)
      | .ok _ => none

/-- Settings with the given values set; what cannot be read is left as it is. -/
def withValues (base : Settings) (given : Members) : Settings :=
  entries.foldl (fun s e =>
    match Members.get? e.name given with
    | none => s
    | some v =>
      match e.update v with
      | .error _ => s
      | .ok f => f s) base

/-- The settings that named values give. -/
def read (base : Settings) (given : Members) : Except (List (String × Problem)) Settings :=
  match problems given with
  | [] => .ok (base.withValues given)
  | ps => .error ps

/-! ## Views -/

def isDevelopment (s : Settings) : Bool := s.environment == "development"

def isProduction (s : Settings) : Bool := s.environment == "production"

/-- The origins that browsers may call from. -/
def origins (s : Settings) : List String :=
  (Text.splitOn ',' s.allowedOrigins).filterMap fun o =>
    let t := Text.trim o
    if t = "" then none else some t

/-- In production there must be a key that tokens are signed with. -/
def checkSecrets (s : Settings) : Except Failure Unit :=
  if s.isProduction && s.secretKey == "" then
    .error (.system .runtimeError "SECRET_KEY must be set in production")
  else .ok ()

def retryStrategy (s : Settings) : RetryStrategy :=
  .ofSettings s.maxAttempts s.retryBaseDelay s.retryMaxDelay

end Settings

end CrmAutomation
