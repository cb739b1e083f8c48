import CrmAutomation.Service.Pipeline

/-!
# The messaging service

Sends emails from templates.
-/

namespace CrmAutomation.Service

def templateExists (s : Service) (organization template : String) : Http.Dialogue Bool :=
  s.pathExists organization "templates" template

/-- The id that the service gave to a mail, if it gave one. -/
def messageId (reply : Http.Reply) : Except Failure Value :=
  match reply.json with
  | .error fault =>
    match fault.failure with
    | .system .recursion m => .error (.system .recursion m)
    | _ => .ok .null
  | .ok (.obj ms) => .ok (Members.getD "message_id" ms)
  | .ok v => .error (.system .attributeError ("'" ++ v.kindName ++ "' object has no attribute 'get'"))

/-- Sends a mail. The key makes a repeated request recognisable. -/
def sendTemplate (s : Service) (organization template address : String) (mergeFields : Members)
    (fromName : Value) (key : Option String) : Http.Dialogue Value :=
  let headers := match key with
    | some k => if k = "" then [] else [("idempotency-key", k)]
    | none => []
  s.call "POST" (organizationPath organization "emails")
    (some (.obj [("template_id", .str template), ("to", .str address), ("from_name", fromName),
      ("merge_fields", .obj mergeFields)]))
    headers false fun reply =>
      match reply with
      | some r => messageId r
      | none => .ok .null

end CrmAutomation.Service
