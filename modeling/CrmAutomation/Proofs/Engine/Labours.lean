import CrmAutomation.Proofs.Engine.Budget
import CrmAutomation.Proofs.Engine.Cancellation
import CrmAutomation.Proofs.Engine.Editions

/-!
# How often actions are attempted

What a worker does is told once more piece by piece, with attempts at actions as the pieces that
count (`Labours`). An attempt is made as a whole and calls the handler of its node; every record is
the next attempt at the node that it is about; and all else records nothing and asks the services
for contacts at most.

The executor reads the number of the first attempt from the trail and counts on from there, so that
before each attempt the number is the next one in the trail, and within the limit unless the node
has succeeded (`Poised`). This is what makes an attempt due (`Engine.labours_tryOnce`), also where
the worker was interrupted after any of its calls before.
-/

namespace CrmAutomation

variable {σ α : Type} {env : Environment σ} {G : String → Graph → Prop} {remit : Remit}
  {w w' : World σ}

/-! ## Pieces -/

/-- All but to record. -/
def Remit.unrecording : Remit := ⟨(· ≠ .record), fun _ => True, fun _ => True⟩

theorem Remit.within_anything (a : Remit) : a.Within anything :=
  ⟨fun _ _ => trivial, fun _ _ => trivial, fun _ _ => trivial⟩

theorem Remit.not_unrecording : ¬unrecording.calls .record := fun h => h rfl

/-- A deed that records nothing and asks the services for contacts at most. -/
structure Aside (env : Environment σ) (w w' : World σ) : Prop where
  deed : Deed env .anything w w'
  records_eq : w'.db.records = w.db.records
  reads : ∃ made, w'.calls = w.calls ++ made ∧ AreReads made

/-- The run is in the database, with its definition. -/
def Run.Stored (run : Run) (db : Database) : Prop :=
  ∃ r ∈ db.runs, r.id = run.id ∧ r.definition = run.definition

/-- An attempt at the node may be made: it is an action in the graph of the run, and there is an
attempt left or one has succeeded. -/
structure Due (G : String → Graph → Prop) (limit : Int) (run : Run) (node : Node) (db : Database) :
    Prop where
  stored : run.Stored db
  placed : ∃ g, G run.definition g ∧ g.node? node.id = some node
  action : node.type.isAction
  affordable : db.nextAttempt run.id node.id ≤ limit ∨ db.hasSuccess run.id node.id

/-- The record is the next attempt at a node in the graph of its run, and beyond the limit only if
it is about no action or one that has succeeded. -/
structure Database.Grants (G : String → Graph → Prop) (limit : Int) (db : Database)
    (r : NodeRecord) : Prop where
  next : r.attempt = db.nextAttempt r.run r.node
  attributed : ∃ o ∈ db.runs, r.run = o.id ∧
    ∃ g n, G o.definition g ∧ g.node? r.node = some n ∧ r.nodeType = n.type.text
  affordable : r.IsOfAction → r.attempt ≤ limit ∨ db.hasSuccess r.run r.node

/-- A piece of work: an attempt at an action is made where it is due, something is recorded, or
neither. -/
inductive Labours (env : Environment σ) (G : String → Graph → Prop)
    (due : Run → Node → World σ → Prop) (w : World σ) : World σ → Prop where
  | aside {w' : World σ} (h : Aside env w w') : Labours env G due w w'
  | attempt (run : Run) (node : Node) (number : Int) (isDue : due run node w) :
    Labours env G due w ((Engine.attemptAction env run node number).run w).2
  | record (r : NodeRecord) (granted : w.db.Grants G env.rules.strategy.maxAttempts r) :
    Labours env G due w ((w.interrupted env .record).recorded r)
  | rest (time : Instant) : Labours env G due w { w with clock := time }
  | restart : Labours env G due w { w with graphs := [], turns := [] }

theorem Labours.imp {due due' : Run → Node → World σ → Prop} (h : Labours env G due w w')
    (hdue : ∀ run node, due run node w → due' run node w) : Labours env G due' w w' := by
  cases h with
  | aside haside => exact .aside haside
  | attempt run node number isDue => exact .attempt run node number (hdue run node isDue)
  | record r granted => exact .record r granted
  | rest time => exact .rest time
  | restart => exact .restart

/-- What makes attempts due in the rules of the worker. -/
def Environment.IsDue (env : Environment σ) (G : String → Graph → Prop) (run : Run) (node : Node)
    (w : World σ) : Prop :=
  Due G env.rules.strategy.maxAttempts run node w.db

theorem Run.Stored.of_deed {run : Run} (h : Deed env remit w w') (hw : run.Stored w.db) :
    run.Stored w'.db := by
  obtain ⟨r, hr, hid, hdefinition⟩ := hw
  obtain ⟨r', hr', hid', hdefinition'⟩ := h.exists_after hr
  exact ⟨r', hr', hid'.trans hid, hdefinition'.trans hdefinition⟩

/-- On a path that asks for contacts as a whole, nothing else is asked for. -/
theorem Path.asides {made : List ServiceCall} (unrecorded : ¬remit.calls .record)
    (h : Path (Deed env remit) w w') (hcalls : w'.calls = w.calls ++ made) (reads : AreReads made) :
    Path (Aside env) w w' := by
  induction h generalizing made with
  | refl => exact .refl
  | @tail v w' hpath hdeed ih =>
    obtain ⟨first, hfirst⟩ := Path.calls_prefix hpath
    obtain ⟨second, hsecond⟩ := hdeed.calls_prefix
    have hmade : made = first ++ second := by
      rw [← hsecond, ← hfirst, List.append_assoc] at hcalls
      exact (List.append_cancel_left hcalls).symm
    subst hmade
    exact .tail (ih hfirst.symm fun call hcall => reads call (List.mem_append_left _ hcall))
      ⟨hdeed.mono remit.within_anything, hdeed.records_eq unrecorded, second, hsecond.symm,
        fun call hcall => reads call (List.mem_append_right _ hcall)⟩

namespace Engine

variable {due : Run → Node → World σ → Prop} {x : Engine σ α}

/-- What records nothing and asks for contacts is done aside, and keeps what such deeds keep. -/
theorem Does.labours {I : World σ → Prop} (hx : Does env remit x)
    (unrecorded : ¬remit.calls .record) (asks : Asks AreReads x)
    (hI : ∀ w w', Aside env w w' → I w → I w') : Stays (Labours env G due) I x := by
  refine stays_iff.2 fun w hw => ?_
  obtain ⟨made, hcalls, reads⟩ := asks w
  have hpath := (hx.path w).asides unrecorded hcalls reads
  exact ⟨Relation.ReflTransGen.mono (fun _ _ => .aside) _ _ hpath,
    hpath.keep hI hw⟩

theorem Silent.asks (hx : Silent x) : Asks AreReads x :=
  hx.mono fun _ h => h ▸ List.forall_mem_nil _

end Engine

/-- A part of a walk that writes no record and asks nothing. -/
theorem Walk.Does.labours {due : Run → Node → World σ → Prop} {x : Walk σ α}
    {A : Progress → World σ → Prop}
    (hx : Walk.Does env remit x) (unrecorded : ¬remit.calls .record) (silent : Walk.Silent x) :
    Walk.Leads (Labours env G due) A x (fun _ _ _ => True) fun _ _ _ => True := by
  intro p w _
  obtain ⟨_, hcalls, rfl⟩ := silent p w
  have hpath := (hx.path p w).asides unrecorded hcalls (List.forall_mem_nil _)
  refine ⟨Relation.ReflTransGen.mono (fun _ _ => .aside) _ _ hpath, ?_⟩
  split <;> trivial

namespace Engine

variable {due : Run → Node → World σ → Prop}

/-! ## Records -/

section Nodes

variable {run : Run} {g : Graph} {node : Node}

/-- The run is stored, and the next attempt at the node has the number. -/
structure Poised (run : Run) (node : Node) (number : Int) (w : World σ) : Prop where
  stored : run.Stored w.db
  next : w.db.nextAttempt run.id node.id = number

/-- The attempt with the number is the next one, and there is an attempt left or one has
succeeded. -/
structure Ready (limit : Int) (run : Run) (node : Node) (number : Int) (w : World σ) : Prop extends
    Poised run node number w where
  affordable : number ≤ limit ∨ w.db.hasSuccess run.id node.id

theorem Poised.of_records_eq {number : Int} (hw : Poised run node number w)
    (stored : run.Stored w'.db) (same : w'.db.records = w.db.records) :
    Poised run node number w' :=
  ⟨stored, Database.nextAttempt_congr same ▸ hw.next⟩

/-- What a walk records is granted, and the attempt after it is the next one. -/
theorem labours_record (hg : G run.definition g) (hn : g.node? node.id = some node) (number : Int)
    (outcome : NodeOutcome) (error : Option String) (output : Option Value) :
    Leads (Labours env G due)
      (fun w => Poised run node number w ∧ (node.type.isAction →
        number ≤ env.rules.strategy.maxAttempts ∨ w.db.hasSuccess run.id node.id))
      (record env run.id node.id node.type.text number outcome error output)
      (fun _ => Poised run node (number + 1)) fun _ => True := by
  rintro w ⟨poised, affordable⟩
  have conceded := w.concedes_interrupted env .record
  have interrupted : Aside env w (w.interrupted env .record) :=
    ⟨.interrupt .record trivial, conceded.records_eq, [], (List.append_nil _).symm,
      List.forall_mem_nil _⟩
  rw [record, run_interrupt_bind]
  split
  · exact ⟨.single (.aside interrupted), trivial⟩
  · rw [run_commit]
    split
    · rename_i hrecord
      obtain ⟨rfl, rfl⟩ := eq_of_record_eq_ok hrecord
      obtain ⟨o, ho, hid, hdefinition⟩ := poised.stored
      have stored := poised.stored.of_deed interrupted.deed
      refine ⟨.single (.record _ ⟨poised.next.symm, ⟨o, ho, hid.symm, g, node, ?_, hn, rfl⟩, ?_⟩),
        stored, ?_⟩
      · rwa [hdefinition]
      · rintro ⟨t, ht, htext⟩
        exact affordable (NodeType.text_inj htext ▸ ht)
      · refine Database.nextAttempt_append (r := ⟨run.id, node.id, node.type.text, number, outcome,
          error, output, _⟩) ?_
        rw [conceded.nextAttempt_eq]
        exact poised.next.symm
    · exact ⟨.tail (.single (.aside interrupted)) (.aside ⟨.tick, rfl, [], (List.append_nil _).symm,
        List.forall_mem_nil _⟩), trivial⟩

theorem Ready.of_records_eq {limit number : Int} (hw : Ready limit run node number w)
    (stored : run.Stored w'.db) (same : w'.db.records = w.db.records) :
    Ready limit run node number w' :=
  ⟨hw.toPoised.of_records_eq stored same, Database.hasSuccess_congr same ▸ hw.affordable⟩

/-! ## What is done aside -/

/-- What deeds aside keep is kept by a part of a walk that goes by them. -/
theorem walk_aside {I : World σ → Prop} {x : Engine σ α} (hx : Does env .unrecording x)
    (asks : Asks AreReads x) (hI : ∀ w w', Aside env w w' → I w → I w') :
    Walk.Leads (Labours env G due) (fun _ => I) (Walk.engine x) (fun _ _ => I) fun _ _ _ => True :=
  .engine (fun _ => hx.labours Remit.not_unrecording asks hI) fun _ _ _ _ => trivial

/-- A run that is stored stays so. -/
theorem stored_aside {x : Engine σ α} (hx : Does env .unrecording x) (silent : Silent x) :
    Walk.Leads (Labours env G due) (fun _ w => run.Stored w.db) (Walk.engine x)
      (fun _ _ w => run.Stored w.db) fun _ _ _ => True :=
  walk_aside hx silent.asks fun _ _ haside hw => hw.of_deed haside.deed

/-- The next attempt at the node stays the same. -/
theorem poised_aside {number : Int} {x : Engine σ α} (hx : Does env .unrecording x)
    (asks : Asks AreReads x) :
    Walk.Leads (Labours env G due) (fun _ => Poised run node number) (Walk.engine x)
      (fun _ _ => Poised run node number) fun _ _ _ => True :=
  walk_aside hx asks fun _ _ haside hw =>
    hw.of_records_eq (hw.stored.of_deed haside.deed) haside.records_eq

/-- A read from the database. -/
theorem labours_look {I : World σ → Prop} (call : StorageCall) (query : Database → α)
    (unrecorded : call ≠ .record) (hI : ∀ w w', Aside env w w' → I w → I w') :
    Leads (Labours env G due) I (look env call query) (fun a w => I w ∧ a = query w.db) I := by
  have does : Does env .unrecording (interrupt env call) := does_interrupt call unrecorded
  exact leads_query (does.labours Remit.not_unrecording (silent_interrupt call).asks hI) query

/-- The number of the next attempt is read. -/
theorem labours_nextAttempt :
    Walk.Leads (Labours env G due) (fun _ w => run.Stored w.db)
      (Walk.engine (nextAttempt env run.id node.id)) (fun number _ => Poised run node number)
      fun _ _ _ => True := by
  have read : Leads (Labours env G due) (fun w => run.Stored w.db)
      (nextAttempt env run.id node.id) _ _ :=
    labours_look .nextAttempt _ nofun fun _ _ haside hw => hw.of_deed haside.deed
  exact .engine (fun _ => read.post fun _ _ hw => ⟨hw.1, hw.2.symm⟩) fun _ _ _ _ => trivial

theorem labours_goOn {A : Progress → World σ → Prop} (next : Option String) :
    Walk.Leads (Labours env G due) A (goOn env run.id next) (fun _ _ _ => True)
      fun _ _ _ => True := by
  have does : Walk.Does env .unrecording (goOn env run.id next) :=
    does_goOn_of next nofun nofun fun _ _ => trivial
  exact does.labours Remit.not_unrecording (silent_goOn _ _)

theorem labours_failWalk {A : Progress → World σ → Prop} (error : String) :
    Walk.Leads (Labours env G due) A (failWalk env run.id error) (fun _ _ _ => True)
      fun _ _ _ => True := by
  have does : Walk.Does env .unrecording (failWalk env run.id error) :=
    does_failWalk_of error nofun nofun trivial
  exact does.labours Remit.not_unrecording (silent_failWalk _ _)

/-! ## Conditions and delays -/

/-- What is recorded of a condition or a delay is granted whatever its number is. -/
theorem labours_record_passive (hg : G run.definition g) (hn : g.node? node.id = some node)
    (passive : ¬node.type.isAction) {number : Int} {outcome : NodeOutcome} {error : Option String}
    {output : Option Value} : Walk.Leads (Labours env G due) (fun _ => Poised run node number)
      (Walk.engine (record env run.id node.id node.type.text number outcome error output))
      (fun _ _ _ => True) fun _ _ _ => True :=
  .engine (fun _ => (labours_record hg hn number outcome error output).conseq
    (fun _ hw => ⟨hw, fun action => absurd action passive⟩) (fun _ _ _ => trivial)
    fun _ _ => trivial) fun _ _ _ _ => trivial

/-- A condition is decided by reads of the contact, and recorded as the next attempt. -/
theorem labours_executeCondition (hg : G run.definition g) (hn : g.node? node.id = some node)
    (passive : ¬node.type.isAction) (c : Comparison) :
    Walk.Leads (Labours env G due) (fun _ w => run.Stored w.db)
      (executeCondition env g run node c) (fun _ _ _ => True) fun _ _ _ => True := by
  unfold executeCondition
  refine .bind labours_nextAttempt fun number => ?_
  refine .bind (poised_aside (does_decideCondition run c).attempt
    (asks_attempt (asks_decideCondition run c))) fun decided => ?_
  split
  · exact .bind (labours_record_passive hg hn passive) fun _ => labours_failWalk _
  · exact .bind (labours_record_passive hg hn passive) fun _ => labours_goOn _

/-- A run is suspended before the delay is recorded. -/
theorem labours_executeDelay (hg : G run.definition g) (hn : g.node? node.id = some node)
    (passive : ¬node.type.isAction) (minutes : Int) :
    Walk.Leads (Labours env G due) (fun _ w => run.Stored w.db)
      (executeDelay env run node minutes) (fun _ _ _ => True) fun _ _ _ => True := by
  unfold executeDelay
  refine .bind (stored_aside does_now silent_now) fun time => ?_
  refine .bind (stored_aside (.ofExcept _) (silent_ofExcept _)) fun resumeAt => ?_
  refine .bind (stored_aside (does_stored .suspend (.suspend run.id node.id resumeAt) rfl nofun
    trivial fun _ _ => rfl) (silent_stored _ _)) fun done => ?_
  split
  · refine .bind labours_nextAttempt fun number => ?_
    refine .bind (labours_record_passive hg hn passive) fun _ => .settle fun _ _ _ => trivial
  · exact .halt fun _ _ _ => trivial

/-! ## Actions -/

/-- What makes an attempt due is there for each attempt that is made. -/
theorem labours_attemptAction (hg : G run.definition g) (hn : g.node? node.id = some node)
    (action : node.type.isAction) (number : Int) :
    Leads (Labours env G (env.IsDue G)) (Ready env.rules.strategy.maxAttempts run node number)
      (attemptAction env run node number)
      (fun _ => Ready env.rules.strategy.maxAttempts run node number) fun _ => True := by
  intro w hw
  have due : env.IsDue G run node w :=
    ⟨hw.stored, ⟨g, hg, hn⟩, action, hw.next.symm ▸ hw.affordable⟩
  have does : Does env .unrecording (attemptAction env run node number) :=
    does_attemptAction run node number nofun
  have after : Ready env.rules.strategy.maxAttempts run node number
      ((attemptAction env run node number).run w).2 :=
    (does.path w).keep (fun _ _ hdeed hw => hw.of_records_eq (hw.stored.of_deed hdeed)
      (hdeed.records_eq Remit.not_unrecording)) hw
  refine ⟨.single (.attempt run node number due), ?_⟩
  split
  · exact after
  · trivial

/-- An attempt is recorded, and followed by another one only if there is one left. -/
theorem labours_tryOnce {number : Int} {again : Walk σ Unit} (hg : G run.definition g)
    (hn : g.node? node.id = some node) (action : node.type.isAction)
    (hagain : Walk.Leads (Labours env G (env.IsDue G))
      (fun _ => Ready env.rules.strategy.maxAttempts run node (number + 1)) again
      (fun _ _ _ => True) fun _ _ _ => True) :
    Walk.Leads (Labours env G (env.IsDue G))
      (fun _ => Ready env.rules.strategy.maxAttempts run node number)
      (tryOnce env g run node number again) (fun _ _ _ => True) fun _ _ _ => True := by
  unfold tryOnce
  refine .bind (.engine (fun _ => labours_attemptAction hg hn action number)
    fun _ _ _ _ => trivial) fun r => ?_
  refine .bind (.engine (fun _ => (labours_record hg hn number _ _ _).pre
    fun _ hw => ⟨hw.toPoised, fun _ => hw.affordable⟩) fun _ _ _ _ => trivial) fun _ => ?_
  split
  · exact .bind (B := fun _ _ _ => True) (.update fun _ _ _ => trivial) fun _ => labours_goOn _
  · split
    · exact labours_failWalk _
    · rename_i hretry
      have more : number < env.rules.strategy.maxAttempts :=
        RetryStrategy.lt_of_shouldRetry (by simpa using hretry)
      refine .bind (poised_aside does_draw silent_draw.asks) fun u => ?_
      refine .bind (poised_aside (.ofExcept _) (silent_ofExcept _).asks) fun delay => ?_
      refine .bind (poised_aside (does_wait delay) (silent_wait delay).asks) fun _ => ?_
      refine .bind (poised_aside (does_stateOf _ StorageCall.noConfusion)
        (silent_look _ _).asks) fun state => ?_
      split
      · exact hagain.pre fun _ _ hw => ⟨hw, .inl more⟩
      · exact .bind (B := fun _ _ _ => True) (.settle fun _ _ _ => trivial)
          fun _ => .halt fun _ _ _ => trivial

theorem labours_tryAction (hg : G run.definition g) (hn : g.node? node.id = some node)
    (action : node.type.isAction) (left : Nat) (number : Int) :
    Walk.Leads (Labours env G (env.IsDue G))
      (fun _ => Ready env.rules.strategy.maxAttempts run node number)
      (tryAction env g run node left number) (fun _ _ _ => True) fun _ _ _ => True := by
  induction left generalizing number with
  | zero => exact labours_tryOnce hg hn action (.halt fun _ _ _ => trivial)
  | succ left ih => exact labours_tryOnce hg hn action (ih (number + 1))

/-- An action that has used its attempts is tried again only if one of them has succeeded. -/
theorem labours_executeAction (hg : G run.definition g) (hn : g.node? node.id = some node)
    (action : node.type.isAction) :
    Walk.Leads (Labours env G (env.IsDue G)) (fun _ w => run.Stored w.db)
      (executeAction env g run node) (fun _ _ _ => True) fun _ _ _ => True := by
  have used (isUsedUp : Bool) (number : Int) (error : String) :
      Walk.Leads (Labours env G (env.IsDue G))
        (fun _ w => Poised run node number w ∧ (isUsedUp = false →
          number ≤ env.rules.strategy.maxAttempts ∨ w.db.hasSuccess run.id node.id))
        (if isUsedUp then failWalk env run.id error
          else tryAction env g run node (env.rules.strategy.maxAttempts - number).toNat number)
        (fun _ _ _ => True) fun _ _ _ => True := by
    cases isUsedUp with
    | true => exact labours_failWalk _
    | false => exact (labours_tryAction hg hn action _ number).pre fun _ _ hw => ⟨hw.1, hw.2 rfl⟩
  unfold executeAction
  refine .bind labours_nextAttempt fun number => ?_
  dsimp only
  split
  · have look : Leads (Labours env G (env.IsDue G)) (Poised run node number)
        (hasSuccess env run.id node.id) _ _ :=
      labours_look .hasSuccess _ nofun fun _ _ haside hw =>
        hw.of_records_eq (hw.stored.of_deed haside.deed) haside.records_eq
    refine .bind (.engine (fun _ => look) fun _ _ _ _ => trivial) fun succeeded => ?_
    refine .bind (.pure _ fun _ _ hw => ⟨hw.1, fun unused => .inr ?_⟩) fun _ => used _ number _
    rw [← hw.2]
    simpa using unused
  · rename_i within
    exact .bind (.pure _ fun _ _ hw => ⟨hw, fun _ => .inl (Int.not_lt.1 within)⟩)
      fun _ => used _ number _

/-- A node is executed for a run that is stored. -/
theorem labours_executeNode (hg : G run.definition g) (hn : g.node? node.id = some node)
    (resuming : Bool) :
    Walk.Leads (Labours env G (env.IsDue G)) (fun _ w => run.Stored w.db)
      (executeNode env g run node resuming) (fun _ _ _ => True) fun _ _ _ => True := by
  unfold executeNode
  split
  · exact labours_goOn _
  · rename_i heq
    exact labours_executeCondition hg hn (by simp [Node.type, heq, NodeConfig.type,
      NodeType.isAction]) _
  · rename_i minutes heq
    have delayed (isOver : Bool) : Walk.Leads (Labours env G (env.IsDue G))
        (fun _ w => run.Stored w.db)
        (if isOver then goOn env run.id (g.nextNodeId? node.id .default)
          else executeDelay env run node minutes) (fun _ _ _ => True) fun _ _ _ => True := by
      split
      · exact labours_goOn _
      · exact labours_executeDelay hg hn (by simp [Node.type, heq, NodeConfig.type,
          NodeType.isAction]) minutes
    dsimp only
    split
    · exact .bind (.pure _ fun _ _ hw => hw) fun _ => delayed _
    · exact .bind (stored_aside (does_look _ _ StorageCall.noConfusion) (silent_look _ _))
        fun _ => delayed _
  · rename_i htrigger hcondition hdelay
    refine labours_executeAction hg hn ?_
    cases hconfig : node.config <;> simp_all [Node.type, NodeConfig.type, NodeType.isAction]

end Nodes

end Engine

end CrmAutomation
