import CrmAutomation.Format
import CrmAutomation.Settings

/-!
# Log lines

Every line says which process and environment it comes from and carries the run that is being
advanced. `Log.record` gives the members of a line, or nothing when its level is below that of its
logger; `Log.text` writes them for a console, where texts with blanks are quoted.
-/

namespace CrmAutomation.Log

/-! ## Levels -/

/-- The levels by name, and their weights. -/
def levels : List (String × Nat) :=
  [("CRITICAL", 50), ("FATAL", 50), ("ERROR", 40), ("WARNING", 30), ("WARN", 30), ("INFO", 20),
    ("DEBUG", 10), ("NOTSET", 0)]

/-- The weight of a level; what is no level counts as `INFO`. -/
def weight (level : String) : Nat :=
  (levels.lookup (Text.capitals level)).getD 20

/-- Whether a configured level can be set. Two names stand for other things than a level. -/
def settable (level : String) : Except Failure Unit :=
  match Text.capitals level with
  | "BASIC_FORMAT" => .error (.system .valueError "Unknown level")
  | "_STYLES" => .error (.system .typeError "Level not an integer or a valid string")
  | _ => .ok ()

/-- The levels that a line can have. -/
def writable : List String :=
  ["debug", "info", "warning", "warn", "error", "critical", "fatal", "exception"]

/-- Whether a line can be written at a level. -/
def callable (level : String) : Except Failure Unit :=
  if level ∈ writable then .ok ()
  else if level = "log" then .error (.system .typeError "the level is missing")
  else .error (.system .attributeError level)

/-- The loggers that are kept quieter than the rest, and their weights. -/
def quietLoggers (echoStatements : Bool) : List (String × Nat) :=
  [("uvicorn.access", 30), ("httpx", 30), ("httpcore", 30), ("aiosqlite", 30), ("celery", 20),
    ("sqlalchemy", 30), ("sqlalchemy.engine", if echoStatements then 10 else 30)]

/-- The loggers that a logger belongs to, itself first. -/
def ancestors (logger : String) : List String :=
  let parts := Text.splitOn '.' logger
  (List.range parts.length).map fun n => String.intercalate "." (parts.take (parts.length - n))

/-- The weight from which on a logger writes. -/
def threshold (s : Settings) (logger : String) : Nat :=
  ((ancestors logger).findSome? fun name =>
    ((quietLoggers s.echoStatements).find? fun q => q.1 == name).map (·.2)).getD
      (weight s.logLevel)

/-! ## Messages -/

/-- The text of a message with arguments; without any it is taken as it is. -/
def message (event : String) (args : List Value) : Except Failure String :=
  if args.isEmpty then .ok event else Format.fill event args

/-! ## Lines -/

/-- What is logged. A plain line has no fields, and is dropped when its arguments do not fit. -/
structure Entry where
  isPlain : Bool
  logger : String
  level : String
  event : String
  fields : Members
  args : List Value

/-- The run that is being advanced, as lines carry it. -/
def runContext (run workflow contact : Value) : Members :=
  let optional (key : String) (v : Value) : Members := if v.isTruthy then [(key, v)] else []
  ("run_id", run) :: optional "workflow_id" workflow ++ optional "subject_id" contact

/-- The name that a level is written with. -/
def levelName (level : String) : String :=
  if level = "warn" then "warning"
  else if level = "exception" then "error"
  else if level = "fatal" then "critical"
  else level

/-- The member that a line of the level "exception" has for the exception being handled, if there
were one. -/
def exceptionMark (e : Entry) (fields : Members) : Members :=
  if e.level ≠ "exception" then fields
  else if e.isPlain then Members.set "exc_info" (.list [.null, .null, .null]) fields
  else Members.setDefault "exc_info" (.bool true) fields

/-- The members of the line with this text. -/
def line (s : Settings) (process : String) (context : Members) (e : Entry) (text : String) :
    Members :=
  let given := Members.set "event" (.str text) (Members.merge context (exceptionMark e e.fields))
  let named := Members.set "level" (.str (levelName e.level))
    (Members.set "logger" (.str (if e.logger = "" then "root" else e.logger)) given)
  let placed := Members.setDefault "env" (.str s.environment)
    (Members.setDefault "service" (.str process) named)
  Members.erase "timestamp" (Members.erase "stack_info" placed)

/-- The names that no field of a line can have, since they are those of its own parts. -/
def reserved : List String := ["self", "event", "method_name"]

/-- The members of a line without its time, or nothing when its level is too low. -/
def record (s : Settings) (process : String) (context : Members) (e : Entry) :
    Except Failure (Option Members) := do
  callable e.level
  if e.fields.any fun m => reserved.contains m.1 then
    throw (.system .typeError "a field has the name of a part of the line")
  let isLow : Bool := weight (levelName e.level) < threshold s e.logger
  match message e.event e.args with
  | .error f => if e.isPlain then return none else throw f
  | .ok text => return if isLow then none else some (line s process context e text)

/-! ## Console -/

/-- A text with blanks after it up to a width. -/
def padded (width : Nat) (s : String) : String := s ++ "".pushn ' ' (width - s.length)

/-- A control sequence that changes how a console shows what follows. -/
def control (codes : List Nat) : String :=
  String.join (codes.map fun n => String.ofList [Char.ofNat 27, '['] ++ toString n ++ "m")

/-- The codes of the colour of a level. -/
def levelCodes (level : String) : List Nat :=
  match level with
  | "critical" => [31, 1]
  | "error" => [31, 1]
  | "warning" => [33, 1]
  | "info" => [32, 1]
  | "debug" => [32, 1]
  | _ => []

/-- The members of a line that have no place of their own, by name. -/
def further (ms : Members) : Members :=
  (ms.filter fun m => m.1 ∉ ["event", "level", "logger", "logger_name", "exc_info"]).mergeSort
    fun a b => a.1 ≤ b.1

/-- The characters that a text is quoted for. -/
def quotedFor : List Char := [' ', '=', '\t', '\r', '\n', Text.singleQuote, Text.doubleQuote]

/-- The value of a member on a console. -/
def valueText : Value → String
  | .str s => if s.toList.any quotedFor.contains then Text.quoted s else s
  | v => v.inner

/-- A line for a console, without its time. In development it is coloured. -/
def text (s : Settings) (ms : Members) : String :=
  let paint (codes : List Nat) (t : String) : String :=
    if s.isDevelopment then control codes ++ t ++ control [0] else t
  let reset := if s.isDevelopment then control [0] else ""
  let get (key : String) : String := (Members.getD key ms).display
  let level := get "level"
  let named (name : String) : String := "[" ++ reset ++ paint [1, 34] name ++ "]" ++ reset
  let columns :=
    [ "[" ++ paint (levelCodes level) (padded 9 level) ++ "]",
      paint [1] (padded 30 (get "event")),
      named (get "logger") ]
    ++ (if Members.has "logger_name" ms then [named (get "logger_name")] else [])
    ++ (further ms).map fun m => paint [36] m.1 ++ "=" ++ paint [35] (valueText m.2)
  String.intercalate " " columns

end CrmAutomation.Log
