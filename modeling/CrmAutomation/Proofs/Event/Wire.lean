import CrmAutomation.Proofs.Graph.Publishable
import CrmAutomation.Worker.Process

/-!
# Events on the wire

What `Event.toValue` writes, `Event.ofMembers` reads: type, organization, contact, payload, chain
depth and id come back as they were, whatever they are (`Event.ofMembers_wire`). The time of the
event is written but never read (`Event.ofMembers_set_occurredAt`): an event that went over the bus
or the queue occurs when it is read there.
-/

namespace CrmAutomation

namespace Event

variable {e : Event} {ms : Members}

/-- An event of an organization, about a contact, with an id. -/
structure Named (e : Event) : Prop where
  organization : e.organization ≠ ""
  contact : e.contact ≠ ""
  id : e.id ≠ ""

/-- The members of an event as it is sent. -/
def wire (e : Event) : Members :=
  [("type", .str e.type.text), ("organizationId", .str e.organization),
    ("subjectId", .str e.contact), ("payload", .obj e.payload), ("chainDepth", .int e.chainDepth),
    ("eventId", .str e.id), ("occurredAt", .str e.occurredAt.isoText)]

theorem toValue_eq (e : Event) : e.toValue = .obj e.wire := rfl

/-! ## Reading an object -/

/-- The type, the ids and the payload of an object are those of an event. -/
structure Outlined (ms : Members) : Prop where
  type : (eventType? (Members.getD "type" ms)).isSome
  organization : (either ms "organizationId" "organization_id").isTruthy
  contact : (either ms "subjectId" "subject_id").isTruthy
  payload : ∃ payload, (Members.getD "payload" ms).orElse (.obj []) = .obj payload

/-- The chain depth that an object gives, zero if it gives none. -/
def depthOf (ms : Members) : Except Failure Int :=
  wholeNumber ((either ms "chainDepth" "chain_depth").orElse (.int 0))

theorem wholeNumber_ne_validation (v : Value) (m : String) (problems : List Value) :
    wholeNumber v ≠ .error (.validation m problems) := by
  fun_cases wholeNumber v <;> nofun

/-- An object without the outline of an event is refused. -/
theorem ofMembers_of_not_outlined (h : ¬ Outlined ms) (freshId : String) (now : Instant) :
    ∃ m problems, ofMembers freshId now ms = .error (.validation m problems) := by
  unfold ofMembers
  dsimp only
  split
  · exact ⟨_, _, rfl⟩
  · next type htype =>
    split
    · exact ⟨_, _, rfl⟩
    · next hids =>
      split
      · next payload hpayload =>
        simp only [Bool.or_eq_true, Bool.not_eq_true', not_or, Bool.not_eq_false] at hids
        exact absurd ⟨by rw [htype]; rfl, hids.1, hids.2, payload, hpayload⟩ h
      · exact ⟨_, _, rfl⟩

/-- An object with the outline of an event is one if its chain depth can be read, and fails as the
chain depth does if not. -/
theorem ofMembers_of_outlined (h : Outlined ms) (freshId : String) (now : Instant) :
    ∃ e : Event,
      ofMembers freshId now ms = (depthOf ms).map fun d => { e with chainDepth := d } := by
  obtain ⟨type, htype⟩ := Option.isSome_iff_exists.1 h.type
  obtain ⟨payload, hpayload⟩ := h.payload
  refine ⟨⟨type, (either ms "organizationId" "organization_id").display,
    (either ms "subjectId" "subject_id").display, payload, 0,
    if (either ms "eventId" "event_id").isTruthy then (either ms "eventId" "event_id").display
      else freshId, now⟩, ?_⟩
  simp only [ofMembers, depthOf, htype, h.organization, h.contact, hpayload, Bool.not_true,
    Bool.or_self, Bool.false_eq_true, if_false]
  cases wholeNumber _ <;> rfl

/-! ## Reading what was written -/

/-- A text that is not empty is taken, whatever the other spelling holds. -/
theorem either_of_text {a b text : String} (h : Members.getD a ms = .str text) (ne : text ≠ "") :
    either ms a b = .str text := by
  simp [either, Value.orElse, Value.isTruthy, h, ne]

/-- An object is its own default. -/
theorem orElse_obj (payload : Members) : (Value.obj payload).orElse (.obj []) = .obj payload := by
  cases payload <;> rfl

theorem depthOf_wire (e : Event) : depthOf e.wire = .ok e.chainDepth := by
  have given : either e.wire "chainDepth" "chain_depth"
      = if e.chainDepth = 0 then .null else .int e.chainDepth := by
    simp [either, wire, Members.getD, Members.get?, Value.orElse, Value.isTruthy]
  rw [depthOf, given]
  split
  · next h => rw [h]; rfl
  · next h => simp [Value.orElse, Value.isTruthy, h, wholeNumber]

theorem ofMembers_wire (named : e.Named) (freshId : String) (now : Instant) :
    ofMembers freshId now e.wire = .ok { e with occurredAt := now } := by
  have type : eventType? (Members.getD "type" e.wire) = some e.type := by
    cases h : e.type <;> simp [wire, Members.getD, Members.get?, h] <;> rfl
  have organization : either e.wire "organizationId" "organization_id" = .str e.organization :=
    either_of_text (by simp [wire, Members.getD, Members.get?]) named.organization
  have contact : either e.wire "subjectId" "subject_id" = .str e.contact :=
    either_of_text (by simp [wire, Members.getD, Members.get?]) named.contact
  have id : either e.wire "eventId" "event_id" = .str e.id :=
    either_of_text (by simp [wire, Members.getD, Members.get?]) named.id
  have payload : (Members.getD "payload" e.wire).orElse (.obj []) = .obj e.payload := by
    simp [wire, Members.getD, Members.get?, orElse_obj]
  have depth := depthOf_wire e
  rw [depthOf] at depth
  simp [ofMembers, type, organization, contact, id, payload, depth, Value.isTruthy, Value.display,
    named.organization, named.contact, named.id]

/-- The time of an event is not read. -/
theorem ofMembers_set_occurredAt (freshId : String) (now : Instant) (v : Value) (ms : Members) :
    ofMembers freshId now (Members.set "occurredAt" v ms) = ofMembers freshId now ms := by
  simp only [ofMembers, either, Members.getD, Members.get?_set_of_ne, ne_eq, String.reduceEq,
    not_false_eq_true]
  rfl

theorem occurring_eq_iff (e : Event) (now : Instant) :
    { e with occurredAt := now } = e ↔ now = e.occurredAt := by
  cases e
  simp

/-- An event with its ids comes back from the wire as it was but for its time: that is the time of
the reading, whatever was written, in a worker and on the bus alike. So it is the same event just
when it is read at the time at which it occurred. -/
theorem reads_back {σ : Type} (e : Event) (named : e.Named) :
    ∃ ms, e.toValue = .obj ms ∧
      (∀ freshId now written, ofMembers freshId now (Members.set "occurredAt" written ms)
        = .ok { e with occurredAt := now }) ∧
      (∀ freshId now, ofMembers freshId now ms = .ok { e with occurredAt := now } ∧
        (ofMembers freshId now ms = .ok e ↔ now = e.occurredAt)) ∧
      (∀ freshId now, Feed.eventOf freshId now e.toValue
        = .ok (some { e with occurredAt := now })) ∧
      ∀ (env : Environment σ) (w : World σ), ∃ w',
        (Engine.readEvent env ms).run w = (.ok { e with occurredAt := w'.clock }, w') := by
  refine ⟨e.wire, e.toValue_eq, fun freshId now written => ?_, fun freshId now => ?_,
    fun freshId now => ?_, fun env w => ?_⟩
  · rw [ofMembers_set_occurredAt, ofMembers_wire named]
  · rw [ofMembers_wire named]
    exact ⟨rfl, by rw [Except.ok.injEq, occurring_eq_iff]⟩
  · simp only [Feed.eventOf, toValue_eq, ofMembers_wire named]
  · have read : ∀ id time, Engine.ofExcept (σ := σ) (ofMembers id time e.wire)
        = Engine.ofExcept (.ok { e with occurredAt := time }) := fun id time => by
      rw [ofMembers_wire named]
    unfold Engine.readEvent
    simp only [read]
    exact ⟨_, rfl⟩

/-- An event of the last second of a year. -/
def lastSecond : Event where
  type := .contactCreated
  organization := "org-1"
  contact := "c-1"
  payload := []
  chainDepth := 0
  id := "evt-1"
  occurredAt := .ofCivil 2024 12 31 23 59 59

theorem reads_back_of_lastSecond :
    lastSecond.Named ∧ ∃ ms, lastSecond.toValue = .obj ms ∧
      ofMembers "evt-2" (.ofCivil 2024 12 31 23 59 59) ms = .ok lastSecond := by
  have named : lastSecond.Named := ⟨by decide, by decide, by decide⟩
  obtain ⟨ms, hms, -, hread, -⟩ := reads_back (σ := Unit) lastSecond named
  exact ⟨named, ms, hms, (hread "evt-2" _).2.2 rfl⟩

/-- Read six days later, the event occurs six days later. -/
theorem occurrence_not_kept :
    lastSecond.Named ∧ ∃ ms, lastSecond.toValue = .obj ms ∧
      ofMembers "evt-2" (.ofCivil 2025 1 6 9 0 0) ms ≠ .ok lastSecond := by
  have named : lastSecond.Named := ⟨by decide, by decide, by decide⟩
  refine ⟨named, lastSecond.wire, lastSecond.toValue_eq, fun h => ?_⟩
  rw [ofMembers_wire named, Except.ok.injEq, occurring_eq_iff] at h
  exact absurd h (by decide)

end Event

end CrmAutomation
