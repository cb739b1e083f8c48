import CrmAutomation.Contact
import CrmAutomation.Service.Client

/-!
# The pipeline service

Reads and changes the contacts of an organization.
-/

namespace CrmAutomation.Service

/-- The path of something that belongs to an organization. -/
def organizationPath (organization rest : String) : String :=
  "/organizations/" ++ organization ++ "/" ++ rest

def contactPath (organization contact : String) : String :=
  organizationPath organization ("contacts/" ++ contact)

/-- The contact, or nothing if there is none. Its id and organization are those asked for unless
the service names others. -/
def getContact (s : Service) (organization contact : String) : Http.Dialogue (Option Contact) :=
  s.call "GET" (contactPath organization contact) none [] true fun reply =>
    match reply with
    | none => .ok none
    | some r => do
      let ms ← s.object r
      let named := Members.setDefault "organization_id" (.str organization)
        (Members.setDefault "id" (.str contact) ms)
      return some (← Contact.ofMembers named)

def setStage (s : Service) (organization contact stage : String) : Http.Dialogue Unit :=
  s.call "PUT" (contactPath organization contact ++ "/stage")
    (some (.obj [("stage_id", .str stage)])) [] false fun _ => .ok ()

def addTag (s : Service) (organization contact tag : String) : Http.Dialogue Unit :=
  s.call "PUT" (contactPath organization contact ++ "/tags/" ++ tag) none [] false fun _ => .ok ()

/-- Removes a tag; one that is not there counts as removed. -/
def removeTag (s : Service) (organization contact tag : String) : Http.Dialogue Unit :=
  s.call "DELETE" (contactPath organization contact ++ "/tags/" ++ tag) none [] true fun _ => .ok ()

/-- Whether something of an organization exists. -/
def pathExists (s : Service) (organization kind id : String) : Http.Dialogue Bool :=
  s.call "GET" (organizationPath organization (kind ++ "/" ++ id)) none [] true
    fun reply => .ok reply.isSome

def stageExists (s : Service) (organization stage : String) : Http.Dialogue Bool :=
  s.pathExists organization "stages" stage

def tagExists (s : Service) (organization tag : String) : Http.Dialogue Bool :=
  s.pathExists organization "tags" tag

end CrmAutomation.Service
