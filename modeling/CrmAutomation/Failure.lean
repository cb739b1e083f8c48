import CrmAutomation.Json.Value

/-!
# Failures

Everything that can go wrong in an operation of the engine is a `Failure`: an error of the
domain with an HTTP status, or a fault of the system below. `Failure.text` is its wording,
`Failure.kindName` the name of its kind, and `Failure.isTransient` says whether another try may
succeed.
-/

namespace CrmAutomation

/-- The kinds of fault of the system below the engine. -/
inductive SystemFault where
  | timeout
  | readTimeout
  | connectTimeout
  | connectError
  | protocolError
  | invalidUrl
  | valueError
  | runtimeError
  | keyError
  | osError
  | typeError
  | attributeError
  | overflow
  | indexError
  | integrity
  | operational
  | invalidModel
  | unencodable
  | invalidKey
  | unsupported
  | recursion
  | unbindable
  | statement
  deriving DecidableEq, Repr

/-- The name of a kind of fault, as it appears in messages. -/
def SystemFault.name : SystemFault → String
  | .timeout => "TimeoutError"
  | .readTimeout => "ReadTimeout"
  | .connectTimeout => "ConnectTimeout"
  | .connectError => "ConnectError"
  | .protocolError => "RemoteProtocolError"
  | .invalidUrl => "InvalidURL"
  | .valueError => "ValueError"
  | .runtimeError => "RuntimeError"
  | .keyError => "KeyError"
  | .osError => "OSError"
  | .typeError => "TypeError"
  | .attributeError => "AttributeError"
  | .overflow => "OverflowError"
  | .indexError => "IndexError"
  | .integrity => "IntegrityError"
  | .operational => "OperationalError"
  | .invalidModel => "ValidationError"
  | .unencodable => "UnicodeEncodeError"
  | .invalidKey => "InvalidKeyError"
  | .unsupported => "NotImplementedError"
  | .recursion => "RecursionError"
  | .unbindable => "ProgrammingError"
  | .statement => "StatementError"

/-- Timeouts and transport faults may pass. -/
def SystemFault.isTransient : SystemFault → Bool
  | .timeout => true
  | .readTimeout => true
  | .connectTimeout => true
  | .connectError => true
  | .protocolError => true
  | _ => false

/-- A failed operation. -/
inductive Failure where
  | general (message : String) (status : Int)
  | notFound (message : String)
  | unauthorized (message : String)
  | forbidden (message : String)
  | validation (message : String) (errors : List Value)
  | conflict (message : String)
  | invalidGraph (problems : List String)
  | condition (message : String)
  | collaborator (message : String) (retryable : Bool) (status : Int)
  | system (kind : SystemFault) (message : String)
  deriving Inhabited

namespace Failure

/-- The name of the kind of a failure. -/
def kindName : Failure → String
  | .general .. => "AutomationError"
  | .notFound _ => "NotFoundError"
  | .unauthorized _ => "UnauthorizedError"
  | .forbidden _ => "ForbiddenError"
  | .validation .. => "ValidationError"
  | .conflict _ => "ConflictError"
  | .invalidGraph _ => "GraphParseError"
  | .condition _ => "ConditionEvaluationError"
  | .collaborator .. => "CollaboratorError"
  | .system kind _ => kind.name

/-- The wording of a failure. -/
def text : Failure → String
  | .general m _ => m
  | .notFound m => m
  | .unauthorized m => m
  | .forbidden m => m
  | .validation m _ => m
  | .conflict m => m
  | .invalidGraph problems =>
    let joined := String.intercalate "; " problems
    if joined = "" then "Invalid graph" else joined
  | .condition m => m
  | .collaborator m _ _ => m
  | .system .keyError m => Text.quoted m
  | .system _ m => m

/-- The HTTP status of an error of the domain; faults of the system have none. -/
def status? : Failure → Option Int
  | .general _ s => some s
  | .notFound _ => some 404
  | .unauthorized _ => some 401
  | .forbidden _ => some 403
  | .validation .. => some 422
  | .conflict _ => some 409
  | .invalidGraph _ => some 422
  | .condition _ => some 422
  | .collaborator _ _ s => some s
  | .system .. => none

/-- Whether another try may succeed. -/
def isTransient : Failure → Bool
  | .collaborator _ retryable _ => retryable
  | .system kind _ => kind.isTransient
  | _ => false

/-- The wording of a failure, or the name of its kind when it has none. -/
def textOrKind (f : Failure) : String := if f.text = "" then f.kindName else f.text

end Failure

end CrmAutomation
