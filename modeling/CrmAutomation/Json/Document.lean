import CrmAutomation.Failure
import CrmAutomation.Json.Reader
import CrmAutomation.Text.Bytes

/-!
# JSON documents as bytes

A document that is sent is in UTF-8, UTF-16 or UTF-32. `Json.readBytes` finds out which and reads
it.
-/

namespace CrmAutomation.Json

/-- Why bytes are no document: they write no text, or the text is no JSON. -/
inductive DocumentFault where
  | unreadable (fault : Bytes.Fault)
  | malformed (text : String) (fault : Fault)

namespace DocumentFault

/-- A fault in words. -/
def message : DocumentFault → String
  | .unreadable f => f.message
  | .malformed text f => f.message text

/-- A fault in words, without its place. -/
def reason : DocumentFault → String
  | .unreadable f => f.message
  | .malformed _ f => f.kind.text

/-- Whether a fault is one of size. -/
def isOfSize : DocumentFault → Bool
  | .unreadable _ => false
  | .malformed _ f => f.kind.isOfSize

/-- A fault as a failure: one of nesting is no fault of the value. -/
def failure (f : DocumentFault) : Failure :=
  match f with
  | .malformed _ ⟨.tooDeep _, _⟩ => .system .recursion f.message
  | _ => .system .valueError f.message

/-- The number of characters before the place where a text is no JSON; faults without a place have
none. -/
def position? : DocumentFault → Option Nat
  | .unreadable _ => none
  | .malformed text f => if f.kind.isOfSize then none else some (f.position text)

end DocumentFault

/-- The value that a text writes. -/
def readDocument (text : String) : Except DocumentFault Value :=
  match read text with
  | .error f => .error (.malformed text f)
  | .ok v => .ok v

/-- The value that the bytes of a document write. -/
def readBytes (bytes : Bytes) : Except DocumentFault Value :=
  match bytes.decode with
  | .error f => .error (.unreadable f)
  | .ok text => readDocument text

end CrmAutomation.Json
