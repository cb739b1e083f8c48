import CrmAutomation.Rehearsal.Script

/-!
# A CRM for rehearsals

Workflows can be rehearsed without the services of a real CRM: a `Crm` keeps contacts, knows which
stages, tags, templates and endpoints there are, and follows a script of failures. `Crm.host` makes
it the surroundings of the engine. Identifiers are labels: the second workflow is `$wf2`, its third
version `$wf2.v3`, the first run `$run1`.
-/

namespace CrmAutomation.Rehearsal

/-- The state of a rehearsed CRM. Contacts are known by organization and id. -/
structure Crm where
  contacts : List ((String × String) × Members) := []
  stages : List String := ["s-new", "s-approved", "s-qualified", "s-won"]
  tags : List String := ["small-biz", "vip", "nurture"]
  templates : List String := ["enterprise-welcome", "tpl-followup"]
  endpoints : List String := ["ep-crm-sync"]
  services : Script ServiceKind := []
  storage : Script StorageCall := []
  cancelsAtWaits : List Bool := []
  sent : Nat := 0
  workflows : List String := []

namespace Crm

/-! ## Contacts -/

/-- The stored data of a contact. -/
def contact? (key : String × String) (c : Crm) : Option Members :=
  (c.contacts.find? fun p => p.1 = key).map (·.2)

/-- Stores the data of a contact. -/
def putContact (key : String × String) (data : Members) (c : Crm) : Crm :=
  if (c.contact? key).isSome then
    { c with contacts := c.contacts.map fun p => if p.1 = key then (key, data) else p }
  else { c with contacts := c.contacts ++ [(key, data)] }

/-- Forgets a contact. -/
def dropContact (key : String × String) (c : Crm) : Crm :=
  { c with contacts := c.contacts.filter fun p => p.1 ≠ key }

/-- Changes the data of a contact, which has to be there. -/
def changeContact (key : String × String) (change : Members → Members) (c : Crm) :
    Answer Unit × Crm :=
  match c.contact? key with
  | some data => (.value (), c.putContact key (change data))
  | none => (.failure (.collaborator ("no contact " ++ key.2) false 404), c)

/-- The contact as the engine sees it. -/
def readContact (key : String × String) (c : Crm) : Answer (Option Contact) :=
  match c.contact? key with
  | none => .value none
  | some data =>
    match Contact.ofMembers data with
    | .ok contact => .value (some contact)
    | .error f => .failure f

/-- The data with another stage. -/
def withStage (stage : String) (data : Members) : Members :=
  Members.set "stage_id" (.str stage) (Members.erase "stageId" data)

/-- The tags in the data of a contact. -/
def tagsOf (data : Members) : List String :=
  let listed := ((Members.getD "tags" data).orElse (Members.getD "tag_ids" data)).orElse (.list [])
  (listed.items?.getD []).map Value.display

/-- The data with other tags, in order. -/
def withTags (change : List String → List String) (data : Members) : Members :=
  let tags := (change (tagsOf data)).mergeSort fun a b => !decide (b < a)
  Members.set "tags" (.list (tags.eraseDups.map .str)) (Members.erase "tag_ids" data)

/-! ## Calls -/

/-- What a call comes to when nothing goes wrong. -/
def perform (call : ServiceCall) (c : Crm) : Answer call.Result × Crm :=
  match call with
  | .getContact org id => (c.readContact (org, id), c)
  | .setStage org id stage => c.changeContact (org, id) (withStage stage)
  | .addTag org id tag => c.changeContact (org, id) (withTags (tag :: ·))
  | .removeTag org id tag => c.changeContact (org, id) (withTags (·.filter (· != tag)))
  | .stageExists _ stage => (.value (c.stages.contains stage), c)
  | .tagExists _ tag => (.value (c.tags.contains tag), c)
  | .templateExists _ template => (.value (c.templates.contains template), c)
  | .endpointExists _ endpoint => (.value (c.endpoints.contains endpoint), c)
  | .sendTemplate _ mail =>
    if c.templates.contains mail.template then
      (.value (.str ("msg-" ++ toString (c.sent + 1))), { c with sent := c.sent + 1 })
    else
      (.failure (.collaborator ("Template " ++ mail.template ++ " not found") false 404), c)
  | .deliver .. => (.value (200 : Int), c)
  | .close _ => (.value (), c)

/-- Cancels runs one by one, as far as the script lets it. -/
def cancelRuns : List String → Crm → List String × Option Failure × Crm
  | [], c => ([], none, c)
  | id :: rest, c =>
    let (cue, storage) := c.storage.next .cancel
    let c := { c with storage := storage }
    match cue.effect.failure? with
    | some f => ([], some f, c)
    | none =>
      let (cancelled, failure, after) := cancelRuns rest c
      (id :: cancelled, failure, after)

/-- Takes the cue of a call to the database. -/
def reactToStorage (call : StorageCall) (db : Database) (c : Crm) : Interruption × Crm :=
  let (cue, storage) := c.storage.next call
  let c := { c with storage := storage }
  if cue.cancels then
    let (cancelled, failure, c) := cancelRuns (db.runs.map (·.id)) c
    (⟨cancelled, failure.or cue.effect.failure?⟩, c)
  else (⟨[], cue.effect.failure?⟩, c)

/-- The runs of the contact that a call is about. -/
def runsOf (call : ServiceCall) (db : Database) : List String :=
  (db.runs.filter fun r => contactOf? call = some (r.organization, r.contact)).map (·.id)

/-- Takes the cue of a service call, and makes the call if nothing goes wrong. -/
def reactToService (call : ServiceCall) (db : Database) (c : Crm) : Reaction call.Result × Crm :=
  let (cue, services) := c.services.next (.of call)
  let c := { c with services := services }
  let (cancelled, broken, c) := cancelRuns (if cue.cancels then runsOf call db else []) c
  match broken, cue.effect with
  | some f, _ => (⟨cancelled, .failure f⟩, c)
  | none, .failure f => (⟨cancelled, .failure f⟩, c)
  | none, .silence => (⟨cancelled, .silence⟩, c)
  | none, .success =>
    let (answer, c) := c.perform call
    (⟨cancelled, answer⟩, c)

/-- Takes the cue of a wait. -/
def reactToWait (db : Database) (c : Crm) : List String × Crm :=
  let cancels := c.cancelsAtWaits.headD false
  let c := { c with cancelsAtWaits := c.cancelsAtWaits.tail }
  let (cancelled, _, c) := cancelRuns (if cancels then db.runs.map (·.id) else []) c
  (cancelled, c)

/-! ## Labels -/

/-- The label of the workflow at a position. -/
def workflowLabel (position : Nat) : String := "$wf" ++ toString (position + 1)

/-- The label of a made-up identifier. -/
def label (kind : IdKind) (db : Database) (c : Crm) : String :=
  match kind with
  | .workflow => workflowLabel c.workflows.length
  | .definition workflow version =>
    workflowLabel ((c.workflows.findIdx? (· == workflow)).getD c.workflows.length)
      ++ ".v" ++ toString version
  | .run => "$run" ++ toString (db.runs.length + 1)
  | _ => "<uuid>"

/-- Keeps the labels of the workflows that a database has. -/
def noteWorkflows (db : Database) (c : Crm) : Crm :=
  let note (known : List String) (d : Definition) : List String :=
    if known.contains d.workflow then known else known ++ [d.workflow]
  { c with workflows := db.definitions.foldl note c.workflows }

/-- The length of an identifier that is no label. -/
def idLength : Nat := 36

/-- A word with the digits after it, if a text begins so. -/
def numbered? (word : String) (cs : List Char) : Option (List Char) :=
  let digits := (cs.drop word.length).takeWhile Char.isDigit
  if word.toList.isPrefixOf cs && !digits.isEmpty then some (word.toList ++ digits) else none

/-- The label that a text begins with. -/
def labelAt? (cs : List Char) : Option (List Char) :=
  match numbered? "$wf" cs with
  | some workflow => some (workflow ++ (numbered? ".v" (cs.drop workflow.length)).getD [])
  | none => (numbered? "$run" cs).or
      (if "<uuid>".toList.isPrefixOf cs then some "<uuid>".toList else none)

/-- The identifiers that a database knows. -/
def identifiers (db : Database) : List String :=
  "<uuid>" :: db.definitions.flatMap (fun d => [d.workflow, d.id]) ++ db.runs.map (·.id)

/-- Characters with labels made as long as identifiers, the first few being passed over. -/
def widenFrom (known : List String) : Nat → List Char → List Char
  | _, [] => []
  | passed + 1, _ :: rest => widenFrom known passed rest
  | 0, c :: rest =>
    match labelAt? (c :: rest) with
    | some label =>
      if known.contains (String.ofList label) then
        List.replicate idLength '-' ++ widenFrom known (label.length - 1) rest
      else c :: widenFrom known 0 rest
    | none => c :: widenFrom known 0 rest

/-- A text with the labels that stand for identifiers made as long as those. -/
def widened (db : Database) (s : String) : String :=
  String.ofList (widenFrom (identifiers db) 0 s.toList)

/-! ## The host -/

/-- The middle between zero and one. -/
def half : Double := .ofRatio false 1 2

/-- A rehearsed CRM as the surroundings of the engine. -/
def host : Host Crm where
  freshId kind db c := (c.label kind db, c)
  draw c := (half, c)
  storage := reactToStorage
  service := reactToService
  wait _ := reactToWait

/-- The same surroundings with a database that never fails, and nobody who cancels runs at waits. -/
def sturdyHost : Host Crm :=
  { host with
    storage := fun _ _ c => (⟨[], none⟩, c)
    wait := fun _ _ c => ([], c) }

/-- The same surroundings with a database that cannot be opened. -/
def lostHost : Host Crm :=
  { sturdyHost with storage := fun call _ c =>
      let reaches := call ∉ [.advance, .resume, .handleEvent]
      (⟨[], if reaches then some (.system .operational "") else none⟩, c) }

end Crm

end CrmAutomation.Rehearsal
