import CrmAutomation.Proofs.Event.Wire

/-!
# What is heard of a feed

The body of a message is of one of three kinds: it holds an event (`Feed.Body.Valid`), it holds
none, or it cannot even be looked at (`Feed.Body.Wrecks`). `Feed.decode` tells them apart, and a
message of the last kind ends the listening. So the events that reach the handler are those of the
messages before the first such one, each once and in order, whatever the handler does
(`Feed.hears_in_order`). A body is of the last kind for its size, because it is no text, or because
of a chain depth that is no number in what is an event otherwise.
-/

namespace CrmAutomation.Feed

/-! ## Bodies -/

namespace Body

variable {b : Body} {v : Value} {ms : Members} {e : Event}

/-- The text of a body, if it is one or the bytes of one. -/
def text? : Body → Option String
  | .text s => some s
  | .bytes b => b.text?
  | .value _ => none

/-- A body writes a JSON value. -/
def Writes (b : Body) (v : Value) : Prop := ∃ s, b.text? = some s ∧ Json.readDocument s = .ok v

/-- A body holds an event: it writes an object that is read as the event. -/
def Holds (b : Body) (e : Event) : Prop :=
  ∃ ms freshId now, b.Writes (.obj ms) ∧ Event.ofMembers freshId now ms = .ok e

/-- A body that holds an event. -/
def Valid (b : Body) : Prop := ∃ e, b.Holds e

/-- A body that cannot be looked at. -/
inductive Wrecks (b : Body) : Prop
  /-- A number in it is too long, or it is nested too deeply. -/
  | size {s : String} {fault : Json.DocumentFault} (text : b.text? = some s)
    (read : Json.readDocument s = .error fault) (ofSize : fault.isOfSize)
  /-- It would hold an event but for a chain depth that is no number. -/
  | depth {ms : Members} {f : Failure} (writes : b.Writes (.obj ms)) (outlined : Event.Outlined ms)
    (unreadable : Event.depthOf ms = .error f)
  /-- It is a value, and neither text nor empty. -/
  | value {v : Value} (eq : b = .value v) (truthy : v.isTruthy)

/-- An empty text is no exception: it is no JSON, and an empty object is no event. -/
theorem decodeText_eq (freshId : String) (now : Instant) (s : String) :
    decodeText freshId now s = match Json.readDocument s with
      | .ok v => eventOf freshId now v
      | .error fault => if fault.isOfSize then .error fault.failure else .ok none := by
  unfold decodeText
  split
  · next h =>
    subst h
    rfl
  · rfl

theorem decode_of_text {s : String} (h : b.text? = some s) (freshId : String) (now : Instant) :
    decode freshId now b = decodeText freshId now s := by
  cases b with
  | text s' =>
    cases h
    rfl
  | bytes b =>
    have hb : b.text? = some s := h
    simp only [decode, hb]
  | value v => cases h

theorem Writes.decode_eq (h : b.Writes v) (freshId : String) (now : Instant) :
    decode freshId now b = eventOf freshId now v := by
  obtain ⟨s, hs, hread⟩ := h
  rw [decode_of_text hs, decodeText_eq, hread]

theorem valid_iff : b.Valid ↔
    ∃ ms d, b.Writes (.obj ms) ∧ Event.Outlined ms ∧ Event.depthOf ms = .ok d := by
  constructor
  · rintro ⟨e, ms, freshId, now, hwrites, hread⟩
    by_cases houtlined : Event.Outlined ms
    · obtain ⟨e', he'⟩ := Event.ofMembers_of_outlined houtlined freshId now
      rw [hread] at he'
      cases hdepth : Event.depthOf ms with
      | ok d => exact ⟨ms, d, hwrites, houtlined, hdepth⟩
      | error f =>
        rw [hdepth] at he'
        cases he'
    · obtain ⟨m, problems, hrefused⟩ := Event.ofMembers_of_not_outlined houtlined freshId now
      rw [hread] at hrefused
      cases hrefused
  · rintro ⟨ms, d, hwrites, houtlined, hdepth⟩
    obtain ⟨e, he⟩ := Event.ofMembers_of_outlined houtlined "" default
    rw [hdepth] at he
    exact ⟨_, ms, _, _, hwrites, he⟩

/-! ## What decoding tells -/

/-- A body that holds an event is decoded to an event that it holds. -/
theorem decode_of_valid (h : b.Valid) (freshId : String) (now : Instant) :
    ∃ e, decode freshId now b = .ok (some e) ∧ b.Holds e := by
  obtain ⟨ms, d, hwrites, houtlined, hdepth⟩ := valid_iff.1 h
  obtain ⟨e, he⟩ := Event.ofMembers_of_outlined houtlined freshId now
  rw [hdepth] at he
  refine ⟨_, ?_, ms, freshId, now, hwrites, he⟩
  rw [hwrites.decode_eq, eventOf, he]
  rfl

/-- A body that cannot be looked at makes decoding fail. -/
theorem decode_of_wrecks (h : b.Wrecks) (freshId : String) (now : Instant) :
    ∃ f, decode freshId now b = .error f := by
  cases h with
  | size text read ofSize =>
    rw [decode_of_text text, decodeText_eq, read]
    exact ⟨_, if_pos ofSize⟩
  | @depth ms f writes outlined unreadable =>
    obtain ⟨e, he⟩ := Event.ofMembers_of_outlined outlined freshId now
    rw [unreadable] at he
    rw [writes.decode_eq]
    refine ⟨f, ?_⟩
    cases f with
    | validation m problems =>
      exact absurd unreadable (Event.wholeNumber_ne_validation _ m problems)
    | _ => simp only [eventOf, he, Except.map]
  | value eq truthy =>
    subst eq
    exact ⟨_, by rw [decode, if_pos truthy]⟩

/-- Any other body is found to hold no event. -/
theorem decode_of_other (hvalid : ¬ b.Valid) (hwrecks : ¬ b.Wrecks) (freshId : String)
    (now : Instant) : decode freshId now b = .ok none := by
  cases htext : b.text? with
  | some s =>
    rw [decode_of_text htext, decodeText_eq]
    cases hread : Json.readDocument s with
    | error fault => exact if_neg fun ofSize => hwrecks (.size htext hread ofSize)
    | ok v =>
      have writes : b.Writes v := ⟨s, htext, hread⟩
      cases v with
      | obj ms =>
        have houtlined : ¬ Event.Outlined ms := by
          intro houtlined
          cases hdepth : Event.depthOf ms with
          | ok d => exact hvalid (valid_iff.2 ⟨ms, d, writes, houtlined, hdepth⟩)
          | error f => exact hwrecks (.depth writes houtlined hdepth)
        obtain ⟨m, problems, hrefused⟩ := Event.ofMembers_of_not_outlined houtlined freshId now
        simp only [eventOf, hrefused]
      | _ => rfl
  | none =>
    cases b with
    | text s => cases htext
    | bytes bs =>
      have hbs : bs.text? = none := htext
      simp only [decode, hbs]
    | value v =>
      rw [decode, if_neg fun truthy => hwrecks (.value rfl truthy)]
      rfl

theorem valid_of_decode {freshId : String} {now : Instant}
    (h : decode freshId now b = .ok (some e)) : b.Valid := by
  by_contra hvalid
  by_cases hwrecks : b.Wrecks
  · obtain ⟨f, hf⟩ := decode_of_wrecks hwrecks freshId now
    rw [h] at hf
    cases hf
  · rw [decode_of_other hvalid hwrecks, Except.ok.injEq] at h
    cases h

end Body

/-! ## Listening -/

/-- A message of a feed. -/
structure Message where
  type : String
  body : Body

namespace Message

/-- The message as one thing that the feed brings. -/
def item (m : Message) : Item := .message m.type m.body

/-- The message is one for events, and holds one. -/
def Carries (m : Message) : Prop := m.type = messageType ∧ m.body.Valid

/-- The message is one for events, and ends the listening. -/
def Ends (m : Message) : Prop := m.type = messageType ∧ m.body.Wrecks

end Message

section Listening

variable {S : Type} (source : StateM S (String × Instant))
  (handler : Event → StateM S (Except Failure Unit))

/-- Decodes bodies with ids and times from a source. -/
def reading (b : Body) : StateM (S × List Event) (Except Failure (Option Event)) :=
  fun (s, heard) =>
    let ((freshId, now), s') := source.run s
    (decode freshId now b, s', heard)

/-- Notes an event and hands it to the handler. -/
def noting (e : Event) : StateM (S × List Event) (Except Failure Unit) := fun (s, heard) =>
  let (result, s') := (handler e).run s
  (result, s', heard ++ [e])

/-- Listens with a handler whose events are noted. -/
def listening (messages : List Message) : StateM (S × List Event) Unit :=
  listen (reading source) (some (noting handler)) (messages.map Message.item)

/-- The events that reach the handler, in order. -/
def heard (messages : List Message) (s : S) : List Event :=
  ((listening source handler messages).run (s, [])).2.2

variable {source handler} {m : Message} {messages : List Message} {s : S} {log : List Event}

/-- What listening does with the first message. -/
theorem run_listening_cons (h : m.type = messageType) :
    (listening source handler (m :: messages)).run (s, log) =
      match decode (source.run s).1.1 (source.run s).1.2 m.body with
      | .error _ => ((), (source.run s).2, log)
      | .ok none => (listening source handler messages).run ((source.run s).2, log)
      | .ok (some e) => (listening source handler messages).run
          (((handler e).run (source.run s).2).2, log ++ [e]) := by
  have step : listening source handler (m :: messages) =
      if m.type = messageType then reading source m.body >>= fun
        | .error _ => pure ()
        | .ok none => listening source handler messages
        | .ok (some e) => noting handler e >>= fun _ => listening source handler messages
      else listening source handler messages := rfl
  rw [step, if_pos h]
  change (match decode (source.run s).1.1 (source.run s).1.2 m.body with
    | .error _ => (pure () : StateM (S × List Event) Unit)
    | .ok none => listening source handler messages
    | .ok (some e) => noting handler e >>= fun _ => listening source handler messages).run
    ((source.run s).2, log) = _
  rcases decode (source.run s).1.1 (source.run s).1.2 m.body with _ | _ | e <;> rfl

/-- Messages of other types are passed over. -/
theorem listening_cons_of_ne (h : m.type ≠ messageType) :
    listening source handler (m :: messages) = listening source handler messages := by
  simp only [listening, List.map_cons, Message.item, listen, h, if_false]

open Classical in
/-- The bodies of the messages that carry events, up to the first one that ends the listening. -/
noncomputable def eventful (messages : List Message) : List Body :=
  ((messages.takeWhile fun m => ¬ m.Ends).filter fun m => m.Carries).map Message.body

theorem eventful_cons_of_ends (ends : m.Ends) : eventful (m :: messages) = [] := by
  simp [eventful, ends]

theorem eventful_cons_of_carries (goes : ¬ m.Ends) (carries : m.Carries) :
    eventful (m :: messages) = m.body :: eventful messages := by
  simp [eventful, goes, carries]

theorem eventful_cons_of_not (goes : ¬ m.Ends) (empty : ¬ m.Carries) :
    eventful (m :: messages) = eventful messages := by
  simp [eventful, goes, empty]

theorem exists_heard (source : StateM S (String × Instant))
    (handler : Event → StateM S (Except Failure Unit)) (messages : List Message) (s : S)
    (log : List Event) : ∃ events, ((listening source handler messages).run (s, log)).2.2
      = log ++ events ∧ List.Forall₂ Body.Holds (eventful messages) events := by
  induction messages generalizing s log with
  | nil => exact ⟨[], (List.append_nil log).symm, .nil⟩
  | cons m rest ih =>
    by_cases htype : m.type = messageType
    · rw [run_listening_cons htype]
      by_cases hwrecks : m.body.Wrecks
      · obtain ⟨f, hf⟩ := Body.decode_of_wrecks hwrecks (source.run s).1.1 (source.run s).1.2
        rw [hf, eventful_cons_of_ends ⟨htype, hwrecks⟩]
        exact ⟨[], (List.append_nil log).symm, .nil⟩
      · have goes : ¬ m.Ends := fun h => hwrecks h.2
        by_cases hvalid : m.body.Valid
        · obtain ⟨e, he, hholds⟩ :=
            Body.decode_of_valid hvalid (source.run s).1.1 (source.run s).1.2
          rw [he, eventful_cons_of_carries goes ⟨htype, hvalid⟩]
          obtain ⟨events, hevents, hall⟩ := ih ((handler e).run (source.run s).2).2 (log ++ [e])
          exact ⟨e :: events, by simp [hevents], .cons hholds hall⟩
        · rw [Body.decode_of_other hvalid hwrecks,
            eventful_cons_of_not goes fun h => hvalid h.2]
          exact ih (source.run s).2 log
    · rw [listening_cons_of_ne htype,
        eventful_cons_of_not (fun h => htype h.1) fun h => htype h.1]
      exact ih s log

/-- Whatever ids and times bodies are read with, and whatever the handler does, the handler gets the
events of the messages that carry one, each once and in order, up to a message whose body cannot
be looked at. -/
theorem hears_in_order (source : StateM S (String × Instant))
    (handler : Event → StateM S (Except Failure Unit)) (messages : List Message) (s : S) :
    List.Forall₂ Body.Holds (eventful messages) (heard source handler messages s) := by
  obtain ⟨events, hevents, hall⟩ := exists_heard source handler messages s []
  rw [heard, hevents, List.nil_append]
  exact hall

end Listening

/-- An event about a contact, but for a chain depth that is no number. -/
def unnumbered : Message where
  type := messageType
  body := .text ("\x7b\"type\":\"tag_added\",\"organizationId\":\"o-1\",\"subjectId\":\"c-1\","
    ++ "\"chainDepth\":\"deep\"\x7d")

/-- An event about another contact. -/
def numbered : Message where
  type := messageType
  body := .text ("\x7b\"type\":\"tag_added\",\"organizationId\":\"o-1\",\"subjectId\":\"c-2\","
    ++ "\"eventId\":\"evt-2\"\x7d")

/-- Nothing is heard of an event that comes after a chain depth that is no number. -/
theorem event_not_heard :
    numbered.Carries ∧ ¬ unnumbered.Carries ∧
      heard (S := Unit) (pure ("id", default)) (fun _ => pure (.ok ())) [unnumbered, numbered] ()
        = [] := by
  have found : (decode "id" default numbered.body).toOption.any Option.isSome := by decide +kernel
  have failed : (decode "id" default unnumbered.body).isOk = false := by decide +kernel
  refine ⟨⟨rfl, ?_⟩, fun carries => ?_, List.eq_nil_of_length_eq_zero (by decide +kernel)⟩
  · rcases h : decode "id" default numbered.body with f | _ | e <;> rw [h] at found
    · cases found
    · cases found
    · exact Body.valid_of_decode h
  · obtain ⟨e, he, -⟩ := Body.decode_of_valid carries.2 "id" default
    rw [he] at failed
    cases failed

end CrmAutomation.Feed
