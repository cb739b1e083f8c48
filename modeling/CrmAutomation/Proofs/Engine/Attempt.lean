import CrmAutomation.Proofs.Engine.Calls

/-!
# Attempts at actions

One attempt at an action node asks the services for the contact and makes at most one more call
(`Engine.leads_attemptAction`). A call that sends something is only made after the trail was asked
for a success and told none, and nothing is written until the attempt is over; so the call, and the
success that is recorded for it, find the node without a success.
-/

namespace CrmAutomation

variable {σ α : Type}

/-- The run is in the database and on the node. -/
def Stands (run : Run) (node : String) (w : World σ) : Prop :=
  ∃ r ∈ w.db.runs, r.id = run.id ∧ r.definition = run.definition ∧ r.node = node

theorem calm_stands (run : Run) (node : String) : Calm (Stands (σ := σ) run node) := by
  rintro w w' h ⟨r, hr, hid, hdefinition, hnode⟩
  obtain ⟨r', hr', hc⟩ := h.exists_after hr
  exact ⟨r', hr', hc.id_eq.trans hid, hc.definition_eq.trans hdefinition, hc.node_eq.trans hnode⟩

/-- The node is one of the graph of the run. -/
def Placed (G : String → Graph → Prop) (run : Run) (node : Node) : Prop :=
  ∃ g, G run.definition g ∧ g.node? node.id = some node

namespace Engine

variable {env : Environment σ} {G : String → Graph → Prop} {scope : Scope}
  {A X : World σ → Prop} {c : ActionContext}

/-! ## The calls of actions -/

theorem keeps_ask {call : ServiceCall} (h : call.key? = none) :
    Keeps env G scope (ask env call) :=
  fun _ hA => leads_ask call hA fun _ _ key hkey => by simp [h] at hkey

theorem keeps_followUp (c : ActionContext) (type : EventType) (payload : Members) :
    Keeps env G scope (followUp env c type payload) := by
  unfold followUp
  split
  · exact .bind (keeps_freshId _) fun _ => .bind keeps_now fun _ => .pure _
  · exact .pure _

theorem keeps_onValue {answer : Answer α} {f : α → Engine σ ActionResult}
    (hf : ∀ a, Keeps env G scope (f a)) : Keeps env G scope (onValue answer f) := by
  cases answer with
  | value a => exact .bind (hf a) fun _ => .pure _
  | failure e => exact .pure _
  | silence => exact .pure _

theorem keeps_moveStage (c : ActionContext) (stage : String) :
    Keeps env G scope (moveStage env c stage) := by
  unfold moveStage
  split
  · exact .pure _
  · exact .bind (keeps_ask rfl) fun _ => keeps_onValue fun _ =>
      .bind (keeps_followUp c _ _) fun _ => .pure _

theorem keeps_addTag (c : ActionContext) (tag : String) :
    Keeps env G scope (addTag env c tag) := by
  unfold addTag
  split
  · exact .pure _
  · exact .bind (keeps_ask rfl) fun _ => keeps_onValue fun _ =>
      .bind (keeps_followUp c _ _) fun _ => .pure _

theorem keeps_removeTag (c : ActionContext) (tag : String) :
    Keeps env G scope (removeTag env c tag) := by
  unfold removeTag
  split
  · exact .pure _
  · exact .bind (keeps_ask rfl) fun _ => keeps_onValue fun _ =>
      .bind (keeps_followUp c _ _) fun _ => .pure _

/-- Whatever is sent with the key of the attempt may be sent. -/
def MaySend (G : String → Graph → Prop) (c : ActionContext) (w : World σ) : Prop :=
  ∀ call : ServiceCall, (∀ key, call.key? = some key → key = c.idempotencyKey) →
    w.db.Unsent G call

theorem leads_sendEmail (template : String) (fromName : Option String) (hA : Calm A)
    (unsent : ∀ w, A w → MaySend G c w) :
    Leads (Step env G scope) A (sendEmail env c template fromName) (fun _ => A) X := by
  unfold sendEmail
  split
  · exact .pure _ fun _ hw => hw
  · refine .bind (leads_ask _ hA fun w hw => unsent w hw _ ?_) fun answer => ?_
    · exact fun key hkey => (Option.some.inj hkey).symm
    · cases answer <;> exact .pure _ fun _ hw => hw

theorem leads_callWebhook (endpoint : String) (hA : Calm A)
    (unsent : ∀ w, A w → MaySend G c w) :
    Leads (Step env G scope) A (callWebhook env c endpoint) (fun _ => A) X := by
  unfold callWebhook
  refine .bind (leads_ask _ hA fun w hw => unsent w hw _ ?_) fun answer => ?_
  · exact fun key hkey => (Option.some.inj hkey).symm
  · cases answer <;> exact .pure _ fun _ hw => hw

/-- The action of a node keeps what is calm; on a sending node it must be free to send. -/
theorem leads_executeInTime (timeout : Double) (hA : Calm A)
    (unsent : c.node.type.isSending → ∀ w, A w → MaySend G c w) :
    Leads (Step env G scope) A (executeInTime env c timeout) (fun _ => A) A := by
  unfold executeInTime
  split
  · exact .pure _ fun _ hw => hw
  · unfold execute
    split
    · exact keeps_moveStage c _ A hA
    · exact keeps_addTag c _ A hA
    · exact keeps_removeTag c _ A hA
    · rename_i heq
      exact leads_sendEmail _ _ hA (unsent (by simp [Node.type, heq, NodeConfig.type,
        NodeType.isSending]))
    · rename_i heq
      exact leads_callWebhook _ hA (unsent (by simp [Node.type, heq, NodeConfig.type,
        NodeType.isSending]))
    · exact .pure _ fun _ hw => hw

/-- The actions that may not be repeated are those of the sending nodes. -/
theorem isIdempotent_of_get? {t : NodeType} {kind : ActionKind}
    (h : ActionRegistry.builtin.get? t.text = some kind) : kind.isIdempotent = !t.isSending := by
  cases t <;> first
    | (obtain rfl := Option.some.inj h; rfl)
    | cases h

/-! ## Attempts -/

/-- What an attempt at a node leaves: a success of a sending node is the first one there. -/
def Fresh (run : Run) (node : Node) (r : ActionResult) (w : World σ) : Prop :=
  node.type.isSending → r.outcome = .success → w.db.hasSuccess run.id node.id = false

/-- A run on a sending node without a success may send with the key of the two. -/
theorem maySend_of_stands {w : World σ} (placed : Placed G c.run c.node)
    (hs : Stands c.run c.node.id w) (sending : c.node.type.isSending)
    (hfresh : w.db.hasSuccess c.run.id c.node.id = false) : MaySend G c w := by
  intro call hcall key hkey
  obtain ⟨r, hr, hid, hdefinition, hnode⟩ := hs
  obtain ⟨g, hg, hn⟩ := placed
  refine ⟨r, hr, ?_, ?_, g, c.node, hdefinition ▸ hg, hnode ▸ hn, sending⟩
  · rw [hcall key hkey, ActionContext.idempotencyKey, hid, hnode]
  · rw [hid, hnode]
    exact hfresh

theorem leads_dispatch (placed : Placed G c.run c.node) (hA : Calm A)
    (hs : ∀ w, A w → Stands c.run c.node.id w) :
    Leads (Step env G scope) A (dispatch env c) (fun r w => A w ∧ Fresh c.run c.node r w) A := by
  -- The rest of an attempt, once it is known whether the node is free to send.
  have rest : ∀ (timeout : Double) (f : Answer ActionResult → Engine σ ActionResult),
      (∀ answer, ∃ r, f answer = Pure.pure r) →
      Leads (Step env G scope)
        (fun w => A w ∧
          (c.node.type.isSending → w.db.hasSuccess c.run.id c.node.id = false))
        (executeInTime env c timeout >>= f) (fun r w => A w ∧ Fresh c.run c.node r w) A := by
    intro timeout f hf
    have calm : Calm fun w => A w ∧
        (c.node.type.isSending → w.db.hasSuccess c.run.id c.node.id = false) :=
      hA.and fun w w' h hw sending => (Calm.hasSuccess _ _ false) w w' h (hw sending)
    refine .bind ((leads_executeInTime timeout calm ?_).fails fun _ hw => hw.1) fun answer => ?_
    · exact fun sending w hw => maySend_of_stands placed (hs w hw.1) sending (hw.2 sending)
    · obtain ⟨r, hr⟩ := hf answer
      rw [hr]
      exact .pure _ fun w hw => ⟨hw.1, fun sending _ => hw.2 sending⟩
  unfold dispatch
  split
  · exact .pure _ fun w hw => ⟨hw, fun _ hsuccess => by simp [ActionResult.failed,
      ActionResult.outcome] at hsuccess⟩
  · rename_i kind hkind
    have hidem := isIdempotent_of_get? hkind
    dsimp only
    split
    · refine .bind ((leads_look _ _ hA).fails fun _ hw => hw.1) fun found => ?_
      split
      · exact .pure _ fun w hw => ⟨hw.1, fun _ hsuccess => by simp [ActionResult.alreadyDone,
          ActionResult.outcome] at hsuccess⟩
      · rename_i hfound
        refine (rest _ _ fun answer => ?_).pre fun w hw => ⟨hw.1, fun _ => ?_⟩
        · cases answer <;> exact ⟨_, rfl⟩
        · rw [← hw.2]
          exact Bool.eq_false_iff.2 hfound
    · rename_i hsafe
      refine (rest _ _ fun answer => ?_).pre fun w hw => ⟨hw, fun sending => ?_⟩
      · cases answer <;> exact ⟨_, rfl⟩
      · simp [hidem, sending] at hsafe

theorem leads_attemptAction {run : Run} {node : Node} (number : Int)
    (placed : Placed G run node) (hA : Calm A) (hs : ∀ w, A w → Stands run node.id w) :
    Leads (Step env G scope) A (attemptAction env run node number)
      (fun r w => A w ∧ Fresh run node r w) A := by
  have failed : ∀ (error : String) (retryable : Bool) (w : World σ), A w →
      A w ∧ Fresh run node (.failed error retryable) w := by
    refine fun error retryable w hw => ⟨hw, fun _ hsuccess => ?_⟩
    simp [ActionResult.failed, ActionResult.outcome] at hsuccess
  unfold attemptAction
  refine .bind ((keeps_demand rfl).attempt A hA) fun answer => ?_
  split
  · exact .pure _ (failed _ _)
  · exact .pure _ (failed _ _)
  · exact leads_dispatch placed hA hs

end Engine

end CrmAutomation
