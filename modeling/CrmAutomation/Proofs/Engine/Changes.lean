import CrmAutomation.Proofs.Engine.Calls

/-!
# Actions that change a contact

Moving a contact, giving it a tag and taking one from it are one action with three sets of values:
the state of the contact that it wants (`NodeConfig.isMet`), the call that brings this about
(`NodeConfig.change?`), and the event that tells of it (`ServiceCall.news?`). In a contact that is
as wanted the action changes nothing (`Engine.execute_of_met`), else it makes its call and then
tells of it (`Engine.execute_of_unmet`).
-/

namespace CrmAutomation

variable {σ : Type}

namespace NodeConfig

/-- The call that changes a contact as a node wants it. -/
def change? (organization contact : String) : NodeConfig → Option ServiceCall
  | .moveStage stage => some (.setStage organization contact stage)
  | .addTag tag => some (.addTag organization contact tag)
  | .removeTag tag => some (.removeTag organization contact tag)
  | _ => none

/-- The id that a node wants a contact to have or not to have, and what it is called. -/
def target? : NodeConfig → Option (String × String)
  | .moveStage stage => some ("stage_id", stage)
  | .addTag tag => some ("tag_id", tag)
  | .removeTag tag => some ("tag_id", tag)
  | _ => none

/-- The contact is as the node wants it. -/
def isMet (contact : Contact) : NodeConfig → Bool
  | .moveStage stage => contact.stage.same (.str stage)
  | .addTag tag => contact.tags.contains tag
  | .removeTag tag => !contact.tags.contains tag
  | _ => false

/-- What is told of a change that a node has made. -/
def told (contact : Contact) : NodeConfig → Members
  | .moveStage stage => [("fromStageId", contact.stage), ("toStageId", .str stage)]
  | .addTag tag => [("tagId", .str tag)]
  | .removeTag tag => [("tagId", .str tag)]
  | _ => []

/-- What is recorded of a change that a node has made. -/
def report (contact : Contact) : NodeConfig → Members
  | .moveStage stage =>
    [("stage_id", .str stage), ("from_stage_id", contact.stage), ("changed", .bool true)]
  | .addTag tag => [("tag_id", .str tag), ("changed", .bool true)]
  | .removeTag tag => [("tag_id", .str tag), ("changed", .bool true)]
  | _ => []

end NodeConfig

/-- What is told of a change: the type of the event, and the filter key and the id that it has. -/
def ServiceCall.news? : ServiceCall → Option (EventType × String × String)
  | .setStage _ _ stage => some (.stageChanged, "to_stage_id", stage)
  | .addTag _ _ tag => some (.tagAdded, "tag_id", tag)
  | .removeTag _ _ tag => some (.tagRemoved, "tag_id", tag)
  | _ => none

theorem NodeConfig.exists_change {config : NodeConfig} {target : String × String}
    (aims : config.target? = some target) (organization contact : String) :
    ∃ call, config.change? organization contact = some call := by
  cases config <;> cases aims <;> exact ⟨_, rfl⟩

/-- Every change is told of, under the id that the call has. -/
theorem NodeConfig.exists_news {organization contact : String} {config : NodeConfig}
    {call : ServiceCall} (h : config.change? organization contact = some call) (subject : Contact) :
    ∃ type key id, call.news? = some (type, key, id) ∧ ∀ (e : Event) (source run : Value),
      e.payload = Members.merge (config.told subject) [("source", source), ("runId", run)] →
      e.payloadValue key = .str id := by
  have found (type : EventType) (key id : String) (news : call.news? = some (type, key, id))
      (htold : ∀ source run : Value, ((Event.payloadKeys key).findSome? fun k =>
        Members.get? k (Members.merge (config.told subject) [("source", source), ("runId", run)]))
          = some (.str id)) :
      ∃ type key id, call.news? = some (type, key, id) ∧ ∀ (e : Event) (source run : Value),
        e.payload = Members.merge (config.told subject) [("source", source), ("runId", run)] →
        e.payloadValue key = .str id :=
    ⟨type, key, id, news, fun e source run hpayload => by
      rw [Event.payloadValue, hpayload, htold, Option.getD_some]⟩
  cases config <;> cases h <;> exact found _ _ _ rfl fun _ _ => rfl

namespace Engine

variable {env : Environment σ} {c : ActionContext} {call : ServiceCall}

/-- An action whose contact is as wanted succeeds at once. -/
theorem execute_of_met {key target : String} (aims : c.node.config.target? = some (key, target))
    (met : c.node.config.isMet c.contact = true) : execute env c
      = return .value (.success [(key, .str target), ("changed", .bool false)]) := by
  unfold execute
  cases hconfig : c.node.config with
  | moveStage | addTag | removeTag =>
    rw [hconfig] at aims met
    cases aims
    exact (if_pos met).trans rfl
  | _ =>
    rw [hconfig] at aims
    cases aims

/-- An action whose contact is not as wanted makes its call, and then tells what has changed. -/
theorem execute_of_unmet
    (changes : c.node.config.change? c.run.organization c.run.contact = some call)
    (unmet : c.node.config.isMet c.contact = false) {type : EventType} {key id : String}
    (news : call.news? = some (type, key, id)) : execute env c = (do
      onValue (← ask env call) fun _ => do
        return {
          ok := true
          emitted := ← followUp env c type (c.node.config.told c.contact)
          output := c.node.config.report c.contact }) := by
  unfold execute
  cases hconfig : c.node.config with
  | moveStage | addTag | removeTag =>
    rw [hconfig] at changes unmet
    cases changes
    cases news
    exact if_neg (Bool.eq_false_iff.1 unmet)
  | _ =>
    rw [hconfig] at changes
    cases changes

end Engine

end CrmAutomation
