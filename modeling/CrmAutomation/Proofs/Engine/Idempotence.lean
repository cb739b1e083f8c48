import CrmAutomation.Proofs.Engine.Asking
import CrmAutomation.Proofs.Engine.Changes
import CrmAutomation.Proofs.Engine.Scripts
import CrmAutomation.Proofs.Engine.Termination
import CrmAutomation.Proofs.Graph.Documents

/-!
# Actions that find the contact as wanted

An id is a text or an integer, and two ids are the same if their texts are (`Value.IsId`). The id
that a node aims at becomes a text when the graph is read (`Graph.IsNodeOf.target_eq`), and so do
the tags of a contact (`Contact.mem_tags_of_ofMembers`), but the stage of a contact stays as the
service gave it.

So an action whose contact shows already what the node wants (`Contact.Shows`) succeeds without any
call but the one that reads the contact, and tells of nothing, unless it is about a stage that was
given as an integer: then the contact is moved to the stage that it is in
(`Engine.attempt_spares_iff`).
-/

namespace CrmAutomation

variable {σ : Type}

/-- A text or an integer. -/
def Value.IsId (v : Value) : Prop := (∃ s, v = .str s) ∨ ∃ i, v = .int i

/-! ## The id that a node aims at -/

/-- The settings that an entry of a graph gives. -/
def Graph.settings (entry : Value) : Members := ((entry.field "data").field "config").members

namespace Graph

variable {entry v : Value} {node : Node} {key target : String}

/-- A text of the settings is the text of the id that was given. -/
theorem Reader.requiredText_of_given (id : String) {settings : Members}
    (given : Text.configValue? settings key = some v) (isId : v.IsId) :
    requiredText id settings key = .ok v.display := by
  unfold requiredText optionalText
  rw [given]
  rcases isId with ⟨s, rfl⟩ | ⟨i, rfl⟩
  · by_cases hs : s = ""
    · simp [hs, Except.map, Value.display]
    · simp [hs, Except.map, Value.display]
  · rfl

/-- A node aims at the id that its entry gives, as a text. -/
theorem IsNodeOf.target_eq (portrayed : IsNodeOf entry node)
    (aims : node.config.target? = some (key, target))
    (given : Text.configValue? (settings entry) key = some v) (isId : v.IsId) :
    target = v.display := by
  have hconfig := portrayed.config
  unfold Reader.config at hconfig
  rw [Value.getD_members] at hconfig
  dsimp only at hconfig
  split at hconfig
  · rename_i raw hraw
    obtain ⟨-, rfl⟩ := Value.orElse_obj_eq_iff.1 hraw
    have hread := Reader.requiredText_of_given node.id given isId
    unfold Node.type at hconfig
    cases hnode : node.config with
    | moveStage | addTag | removeTag =>
      rw [hnode] at hconfig aims
      cases aims
      obtain ⟨t, ht, heq⟩ := Reader.bind_eq_ok_iff.1 hconfig
      cases heq
      exact Except.ok.inj (ht.symm.trans hread)
    | _ =>
      rw [hnode] at aims
      cases aims
  · cases hconfig

end Graph

/-! ## The ids of a contact -/

namespace TextSet

theorem mem_insert {s t : String} : ∀ {set : TextSet}, s ∈ insert t set ↔ s = t ∨ s ∈ set
  | [] => by simp [insert]
  | u :: set => by
    unfold insert
    split
    · exact List.mem_cons
    · split
      · rename_i heq
        rw [heq, List.mem_cons]
        tauto
      · rw [List.mem_cons, mem_insert, List.mem_cons]
        tauto

theorem mem_foldl_insert {s : String} (xs : List String) (set : TextSet) :
    s ∈ xs.foldl (fun set t => insert t set) set ↔ s ∈ xs ∨ s ∈ set := by
  induction xs generalizing set with
  | nil => simp
  | cons x xs ih =>
    rw [List.foldl_cons, ih, mem_insert, List.mem_cons]
    tauto

theorem mem_ofList {s : String} {xs : List String} : s ∈ ofList xs ↔ s ∈ xs := by
  rw [ofList, mem_foldl_insert]
  simp

end TextSet

namespace Contact

variable {ms : Members} {contact : Contact}

/-- The stage that an object gives a contact. -/
def stageOf (ms : Members) : Value := either ms "stage_id" "stageId"

/-- The texts of the tags that an object gives a contact. -/
def tagsOf (ms : Members) : List String :=
  (((either ms "tags" "tag_ids").orElse (.list [])).items?.getD []).map Value.display

/-- The contact that an object describes is as a node wants it, ids being compared as texts. -/
def Shows (ms : Members) : NodeConfig → Prop
  | .moveStage stage => (stageOf ms).IsId ∧ (stageOf ms).display = stage
  | .addTag tag => tag ∈ tagsOf ms
  | .removeTag tag => tag ∉ tagsOf ms
  | _ => False

/-- The node is about the stage of the contact, which the object gives as an integer. -/
def Numbers (ms : Members) : NodeConfig → Prop
  | .moveStage _ => ∃ i, stageOf ms = .int i
  | _ => False

theorem ofMembers_spec (described : ofMembers ms = .ok contact) :
    contact.stage = stageOf ms ∧ ∀ tag, tag ∈ contact.tags ↔ tag ∈ tagsOf ms := by
  simp only [ofMembers, bind, Except.bind] at described
  split at described
  · cases described
  split at described
  · cases described
  split at described
  · cases described
  · rename_i ts htags
    split at described
    · cases described
    · obtain rfl := Except.ok.inj described
      exact ⟨rfl, fun tag => by rw [TextSet.mem_ofList, tagsOf, htags, Option.getD_some]⟩

/-- A contact is found as a node wants it if it is so when ids are compared as texts, unless it is
about a stage that is an integer. -/
theorem isMet_iff (described : ofMembers ms = .ok contact) {config : NodeConfig}
    {target : String × String} (aims : config.target? = some target) :
    config.isMet contact = true ↔ Shows ms config ∧ ¬Numbers ms config := by
  obtain ⟨hstage, htags⟩ := ofMembers_spec described
  cases config with
  | moveStage stage =>
    simp only [NodeConfig.isMet, Shows, Numbers, hstage]
    cases stageOf ms <;> simp [Value.same, Value.IsId, Value.display, Value.whole?]
  | addTag tag => simp [NodeConfig.isMet, Shows, Numbers, htags]
  | removeTag tag => simp [NodeConfig.isMet, Shows, Numbers, htags]
  | _ => cases aims

end Contact

namespace Engine

variable {env : Environment σ} {run : Run} {node : Node} {contact : Contact} {w : World σ}

/-! ## Attempts -/

theorem run_ask (call : ServiceCall) (w : World σ) :
    (ask env call).run w = (.ok (env.host.service call w.db w.host).1.answer, w.served env call) :=
  rfl

/-- An attempt whose contact is served does what the node says. -/
theorem run_attemptAction_of_served (number : Int)
    (served : (env.host.service (.getContact run.organization run.contact) w.db w.host).1.answer
      = .value (some contact)) :
    (attemptAction env run node number).run w
      = (dispatch env { run := run, node := node, contact := contact, attempt := number }).run
          (w.served env (.getContact run.organization run.contact)) := by
  unfold attemptAction
  have hread : (attempt (demand env (.getContact run.organization run.contact))).run w
      = (.ok (.ok (some contact)), w.served env (.getContact run.organization run.contact)) := by
    rw [run_attempt, demand, run_bind, run_ask, served]
    rfl
  rw [run_bind, hread]

/-- An action that changes a contact may be repeated, so nothing is looked up before it. -/
theorem dispatch_of_aims {c : ActionContext} {target : String × String}
    (aims : c.node.config.target? = some target) (inTime : c.node.InTime env.rules) :
    ∃ kind : ActionKind, dispatch env c = (do
      match ← execute env c with
      | .value r => return r
      | .failure f => return .failed f.textOrKind f.isTransient
      | .silence => return .failed (kind.text ++ " timed out after "
          ++ (timeoutOf env.rules kind).text ++ "s") true) := by
  obtain ⟨kind, hkind, hrepeats⟩ : ∃ kind,
      ActionRegistry.builtin.get? c.node.type.text = some kind ∧ kind.isIdempotent = true := by
    unfold Node.type
    cases hconfig : c.node.config with
    | moveStage | addTag | removeTag => exact ⟨_, rfl, rfl⟩
    | _ =>
      rw [hconfig] at aims
      cases aims
  refine ⟨kind, ?_⟩
  have hless : executeInTime env c (timeoutOf env.rules kind) = execute env c :=
    if_neg (by rw [inTime kind hkind]; exact Bool.false_ne_true)
  unfold dispatch
  simp only [hkind, hrepeats, Bool.not_true, Bool.false_eq_true, if_false]
  exact congrArg (· >>= _) hless

theorem calls_dispatch_of_unmet {c : ActionContext} {target : String × String}
    (aims : c.node.config.target? = some target) (inTime : c.node.InTime env.rules)
    (unmet : c.node.config.isMet c.contact = false) :
    ∃ change, c.node.config.change? c.run.organization c.run.contact = some change ∧
      Asks (· = [change]) (dispatch env c) := by
  obtain ⟨change, changes⟩ := c.node.config.exists_change aims c.run.organization c.run.contact
  obtain ⟨type, key, id, news, -⟩ := NodeConfig.exists_news changes c.contact
  obtain ⟨kind, hdispatch⟩ := dispatch_of_aims aims inTime
  refine ⟨change, changes, ?_⟩
  rw [hdispatch, execute_of_unmet changes unmet news]
  have hexecute : Asks (· = [change]) (do
      onValue (← ask env change) fun _ => do
        return {
          ok := true
          emitted := ← followUp env c type (c.node.config.told c.contact)
          output := c.node.config.report c.contact }) :=
    (asks_ask change).bind (fun answer => silent_onValue fun _ =>
      (silent_followUp c _ _).bind (fun _ => asks_pure _ rfl) rfl) (fun _ hl => hl)
      fun _ _ hl hm => by rw [hl, hm, List.append_nil]
  refine hexecute.bind (M := (· = [])) (fun answer => ?_) (fun _ hl => hl)
    fun _ _ hl hm => by rw [hl, hm, List.append_nil]
  cases answer <;> exact asks_pure _ rfl

/-- Whether an attempt changes the contact that it is served depends on whether this shows already
what the node wants. If so, and it is not about a stage that was given as an integer, the attempt
succeeds, and nothing is done but that the contact is read; else it makes the call that changes the
contact. -/
theorem attempt_spares_iff {entry v : Value} {key target : String} {ms : Members}
    (portrayed : Graph.IsNodeOf entry node)
    (aims : node.config.target? = some (key, target))
    (given : Text.configValue? (Graph.settings entry) key = some v) (isId : v.IsId)
    (described : Contact.ofMembers ms = .ok contact)
    (served : (env.host.service (.getContact run.organization run.contact) w.db w.host).1.answer
      = .value (some contact))
    (inTime : node.InTime env.rules) (number : Int) :
    target = v.display ∧
    (Contact.Shows ms node.config ∧ ¬Contact.Numbers ms node.config →
      (attemptAction env run node number).run w
        = (.ok (.success [(key, .str target), ("changed", .bool false)]),
            w.served env (.getContact run.organization run.contact))) ∧
    (¬(Contact.Shows ms node.config ∧ ¬Contact.Numbers ms node.config) →
      ∃ change, node.config.change? run.organization run.contact = some change ∧
        ((attemptAction env run node number).run w).2.calls
          = w.calls ++ [.getContact run.organization run.contact, change]) := by
  refine ⟨portrayed.target_eq aims given isId, fun shown => ?_, fun unshown => ?_⟩ <;>
    rw [run_attemptAction_of_served number served]
  · have met := (Contact.isMet_iff described aims).2 shown
    obtain ⟨kind, hdispatch⟩ :=
      dispatch_of_aims (c := ⟨run, node, contact, number⟩) aims inTime
    rw [hdispatch, execute_of_met (c := ⟨run, node, contact, number⟩) aims met]
    rfl
  · have unmet : node.config.isMet contact = false :=
      Bool.eq_false_iff.2 fun met => unshown ((Contact.isMet_iff described aims).1 met)
    obtain ⟨change, changes, hasks⟩ :=
      calls_dispatch_of_unmet (c := ⟨run, node, contact, number⟩) aims inTime unmet
    refine ⟨change, changes, ?_⟩
    obtain ⟨made, hcalls, rfl⟩ :=
      hasks (w.served env (.getContact run.organization run.contact))
    exact hcalls.trans (List.append_assoc ..)

/-- A contact in stage 5 and with tag 7, whose stage is given as `stage`. -/
def settled (stage : Value) : Members :=
  [("id", .str "c-1"), ("stage_id", stage), ("tags", .list [.int 7, .str "8"])]

/-- The same contact as it is read. -/
def settledContact (stage : Value) : Contact := ⟨"c-1", "", stage, ["7", "8"], [], []⟩

/-- Services that know the contact, and are content with what is changed. -/
def knowing (stage : Value) : Environment Unit :=
  { undisturbed with
    host := { undisturbed.host with
      service := fun call _ _ => match call with
        | .getContact .. => (⟨[], .value (some (settledContact stage))⟩, ())
        | .setStage .. => (⟨[], .value ()⟩, ())
        | _ => (⟨[], .silence⟩, ()) } }

/-- An entry of a graph whose target is given as an integer. -/
def aiming (type key : String) (id : Int) : Value :=
  .obj [("id", .str "n"), ("type", .str type), ("data", .obj [("config", .obj [(key, .int id)])])]

def aimed : Run := (circling.db.runs.head?).getD default

theorem portrayed_moving :
    Graph.IsNodeOf (aiming "move_stage" "stage_id" 5) ⟨"n", .moveStage "5", ""⟩ :=
  ⟨rfl, rfl, rfl, rfl⟩

theorem portrayed_tagging :
    Graph.IsNodeOf (aiming "add_tag" "tag_id" 7) ⟨"n", .addTag "7", ""⟩ :=
  ⟨rfl, rfl, rfl, rfl⟩

/-- A contact is not moved to the stage that it is in, nor given a tag that it has, though the graph
gives the stage and the tag as integers. -/
theorem attempt_spares_iff_of_settled :
    Contact.ofMembers (settled (.str "5")) = .ok (settledContact (.str "5")) ∧
    Contact.Shows (settled (.str "5")) (.moveStage "5") ∧
    ((attemptAction (knowing (.str "5")) aimed ⟨"n", .moveStage "5", ""⟩ 1).run circling)
      = (.ok (.success [("stage_id", .str "5"), ("changed", .bool false)]),
          circling.served (knowing (.str "5")) (.getContact aimed.organization aimed.contact)) ∧
    ((attemptAction (knowing (.str "5")) aimed ⟨"n", .addTag "7", ""⟩ 1).run circling)
      = (.ok (.success [("tag_id", .str "7"), ("changed", .bool false)]),
          circling.served (knowing (.str "5")) (.getContact aimed.organization aimed.contact)) := by
  have described : Contact.ofMembers (settled (.str "5")) = .ok (settledContact (.str "5")) := rfl
  have staged : Contact.Shows (settled (.str "5")) (.moveStage "5") := ⟨.inl ⟨"5", rfl⟩, rfl⟩
  have tagged : Contact.Shows (settled (.str "5")) (.addTag "7") := by
    show "7" ∈ Contact.tagsOf _
    decide
  have inTime (config : NodeConfig) (type : NodeType) (h : config.type = type)
      (htype : type = .moveStage ∨ type = .addTag) :
      (⟨"n", config, ""⟩ : Node).InTime (knowing (.str "5")).rules := by
    intro kind hkind
    rw [Node.type, h] at hkind
    rcases htype with rfl | rfl <;> cases hkind <;> decide +kernel
  obtain ⟨-, moved, -⟩ := @attempt_spares_iff Unit (knowing (.str "5")) aimed _ _ circling _ _ _ _ _
    portrayed_moving rfl rfl (.inr ⟨5, rfl⟩) described rfl (inTime _ _ rfl (.inl rfl)) 1
  obtain ⟨-, given, -⟩ := @attempt_spares_iff Unit (knowing (.str "5")) aimed _ _ circling _ _ _ _ _
    portrayed_tagging rfl rfl (.inr ⟨7, rfl⟩) described rfl (inTime _ _ rfl (.inr rfl)) 1
  exact ⟨described, staged, moved ⟨staged, by rintro ⟨i, hi⟩; cases hi⟩, given ⟨tagged, id⟩⟩

/-- A contact whose stage is given as the integer 5 is moved to stage 5 by the first attempt and by
the second, and each tells of it. -/
theorem numbered_stage_written :
    let env := knowing (.int 5)
    let node : Node := ⟨"n", .moveStage "5", ""⟩
    let first := (attemptAction env aimed node 1).run circling
    let second := (attemptAction env aimed node 2).run first.2
    Graph.IsNodeOf (aiming "move_stage" "stage_id" 5) node ∧
    Contact.ofMembers (settled (.int 5)) = .ok (settledContact (.int 5)) ∧
    Contact.Shows (settled (.int 5)) node.config ∧
    second.2.calls.filterMap (·.news?)
      = [(.stageChanged, "to_stage_id", "5"), (.stageChanged, "to_stage_id", "5")] ∧
    (first.1.toOption.map fun r => r.emitted.map (·.type)) = some [.stageChanged] ∧
    (second.1.toOption.map fun r => r.emitted.map (·.type)) = some [.stageChanged] :=
  ⟨portrayed_moving, rfl, ⟨.inr ⟨5, rfl⟩, rfl⟩, by decide +kernel, by decide +kernel,
    by decide +kernel⟩

end Engine

end CrmAutomation
