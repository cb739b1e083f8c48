import CrmAutomation.Engine.Host

/-!
# Scripts

A script says in advance what goes wrong in a rehearsal: for each kind of call a queue of cues,
of which every call takes the next. Without a cue a call succeeds.
-/

namespace CrmAutomation.Rehearsal

/-- What a cue does to the call that takes it. -/
inductive Effect where
  | success
  | failure (f : Failure)
  | silence

/-- What happens at a call: runs may be cancelled by somebody else before it. -/
structure Cue where
  cancels : Bool
  effect : Effect

/-- Nothing happens. -/
def Cue.calm : Cue := ⟨false, .success⟩

def Effect.failure? : Effect → Option Failure
  | .failure f => some f
  | _ => none

/-- Queues of cues by kind of call. -/
abbrev Script (κ : Type) := List (κ × List Cue)

namespace Script

variable {κ : Type} [DecidableEq κ]

/-- Adds cues for a kind of call behind those that are there. -/
def add (kind : κ) (cues : List Cue) : Script κ → Script κ
  | [] => [(kind, cues)]
  | (k, cs) :: rest => if k = kind then (k, cs ++ cues) :: rest else (k, cs) :: add kind cues rest

/-- The next cue for a kind of call, and the script after it. -/
def next (kind : κ) : Script κ → Cue × Script κ
  | [] => (.calm, [])
  | (k, cs) :: rest =>
    if k = kind then (cs.headD .calm, (k, cs.tail) :: rest)
    else
      let (cue, after) := next kind rest
      (cue, (k, cs) :: after)

end Script

/-- The kinds of service calls. -/
inductive ServiceKind where
  | getContact
  | setStage
  | addTag
  | removeTag
  | stageExists
  | tagExists
  | templateExists
  | endpointExists
  | sendTemplate
  | deliver
  | close
  deriving DecidableEq, Repr

def ServiceKind.of : ServiceCall → ServiceKind
  | .getContact .. => .getContact
  | .setStage .. => .setStage
  | .addTag .. => .addTag
  | .removeTag .. => .removeTag
  | .stageExists .. => .stageExists
  | .tagExists .. => .tagExists
  | .templateExists .. => .templateExists
  | .endpointExists .. => .endpointExists
  | .sendTemplate .. => .sendTemplate
  | .deliver .. => .deliver
  | .close .. => .close

namespace ServiceKind

def all : List ServiceKind :=
  [.getContact, .setStage, .addTag, .removeTag, .stageExists, .tagExists, .templateExists,
    .endpointExists, .sendTemplate, .deliver, .close]

/-- The name of a kind of call in scripts and logs. -/
def name : ServiceKind → String
  | .getContact => "get_subject"
  | .setStage => "set_stage"
  | .addTag => "add_tag"
  | .removeTag => "remove_tag"
  | .stageExists => "stage_exists"
  | .tagExists => "tag_exists"
  | .templateExists => "template_exists"
  | .endpointExists => "endpoint_exists"
  | .sendTemplate => "send_template"
  | .deliver => "deliver"
  | .close => "close"

def ofName? : String → Option ServiceKind := findByText name all

end ServiceKind

/-! ## Logs -/

/-- What a log says of a mail. -/
def mailEntry (m : Mail) : Value :=
  .obj [("template_id", .str m.template), ("to", .str m.address), ("merge_fields", .obj m.mergeFields),
    ("from_name", .ofOption m.fromName), ("key", .str m.key)]

/-- What a log says of a delivery. -/
def deliveryEntry (d : Delivery) : Value :=
  .obj [("endpoint_id", .str d.endpoint), ("payload", .obj d.payload), ("delivery_id", .str d.id),
    ("timeout", .float d.timeout)]

/-- What a call is made with. -/
def arguments : ServiceCall → List Value
  | .getContact org contact => [.str org, .str contact]
  | .setStage org contact stage => [.str org, .str contact, .str stage]
  | .addTag org contact tag => [.str org, .str contact, .str tag]
  | .removeTag org contact tag => [.str org, .str contact, .str tag]
  | .stageExists org stage => [.str org, .str stage]
  | .tagExists org tag => [.str org, .str tag]
  | .templateExists org template => [.str org, .str template]
  | .endpointExists org endpoint => [.str org, .str endpoint]
  | .sendTemplate org mail => [.str org, .str mail.contact, mailEntry mail]
  | .deliver org delivery => [.str org, .str delivery.contact, deliveryEntry delivery]
  | .close service => [.str service.text]

/-- A call as it is logged. -/
def logged (c : ServiceCall) : Value := .list (.str (ServiceKind.of c).name :: arguments c)

/-- The organization and contact that a call is about. -/
def contactOf? : ServiceCall → Option (String × String)
  | .getContact org id => some (org, id)
  | .setStage org id _ => some (org, id)
  | .addTag org id _ => some (org, id)
  | .removeTag org id _ => some (org, id)
  | .sendTemplate org mail => some (org, mail.contact)
  | .deliver org delivery => some (org, delivery.contact)
  | _ => none

end CrmAutomation.Rehearsal
