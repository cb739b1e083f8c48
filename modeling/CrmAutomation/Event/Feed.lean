import CrmAutomation.Event.Basic
import CrmAutomation.Json.Document

/-!
# Event feeds

A feed brings messages from a bus. `Feed.decode` turns the body of one into an event, or into
nothing when it is none; `Feed.listen` hands the event of every message to a handler, in
order, and goes on when the handler fails.
-/

namespace CrmAutomation.Feed

/-- The body of a message. -/
inductive Body where
  | text (s : String)
  | bytes (b : Bytes)
  | value (v : Value)

/-- One thing that a feed brings: a message of some type, a breakdown, or silence for good. -/
inductive Item where
  | message (type : String) (body : Body)
  | breakdown (failure : Failure)
  | silence

/-- The type of the messages that carry events. -/
def messageType : String := "message"

/-- The event of an object, nothing for one that is not valid. Other failures are passed on. -/
def eventOf (freshId : String) (now : Instant) (v : Value) : Except Failure (Option Event) :=
  match v with
  | .obj ms =>
    match Event.ofMembers freshId now ms with
    | .ok e => .ok (some e)
    | .error (.validation _ _) => .ok none
    | .error f => .error f
  | _ => .ok none

/-- The event written in a text; an empty text stands for an empty object. A text that is no JSON
holds no event, but a fault of size is passed on. -/
def decodeText (freshId : String) (now : Instant) (s : String) : Except Failure (Option Event) :=
  if s = "" then eventOf freshId now (.obj [])
  else match Json.readDocument s with
    | .ok v => eventOf freshId now v
    | .error fault => if fault.isOfSize then .error fault.failure else .ok none

/-- The event that the body of a message holds. -/
def decode (freshId : String) (now : Instant) : Body → Except Failure (Option Event)
  | .text s => decodeText freshId now s
  | .bytes b =>
    match b.text? with
    | some s => decodeText freshId now s
    | none => .ok none
  | .value v =>
    if v.isTruthy then
      .error (.system .typeError ("the JSON object must be str, bytes or bytearray, not "
        ++ v.kindName))
    else eventOf freshId now (.obj [])

/-- Hands the events of a feed to `handle`, if there is one. A failing handler is passed over; a
breakdown of the feed, and a body that cannot even be looked at, end the listening. -/
def listen {m : Type → Type} [Monad m] (read : Body → m (Except Failure (Option Event)))
    (handle : Option (Event → m (Except Failure Unit))) : List Item → m Unit
  | [] => pure ()
  | .breakdown _ :: _ => pure ()
  | .silence :: _ => pure ()
  | .message type body :: rest =>
    if type = messageType then do
      match ← read body with
      | .error _ => pure ()
      | .ok none => listen read handle rest
      | .ok (some e) =>
        match handle with
        | none => listen read handle rest
        | some h =>
          let _ ← h e
          listen read handle rest
    else listen read handle rest

end CrmAutomation.Feed
