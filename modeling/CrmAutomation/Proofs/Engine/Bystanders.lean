import CrmAutomation.Proofs.Engine.Deeds
import CrmAutomation.Proofs.Engine.Termination
import CrmAutomation.Proofs.Store.Recovery

/-!
# Runs that stand by

An execution writes to its own run, and an event begins runs of which the ids are new to the table.
So where nothing is cancelled (`Host.CancelsNothing`), the execution of a run, with all that follows
from the events that it causes, leaves every other row as it is (`Engine.stays_runFrom_row`). The
proof goes down the levels of follow-up events: what is executed on each of them are the runs that
were begun there.
-/

namespace CrmAutomation

variable {σ : Type}

/-! ## Hosts that cancel nothing -/

/-- A host that never cancels a run. -/
def Host.CancelsNothing (host : Host σ) : Prop := ∀ id, host.Spares id

namespace World

variable {env : Environment σ} (quiet : env.host.CancelsNothing) (w : World σ)

include quiet

theorem db_interrupted (call : StorageCall) : (w.interrupted env call).db = w.db := by
  have none : (env.host.storage call w.db w.host).1.cancelled = [] :=
    List.eq_nil_iff_forall_not_mem.2 fun id => (quiet id).storage call w.db w.host
  simp [interrupted, conceded, none, Engine.cancelAll]

theorem db_served (call : ServiceCall) : (w.served env call).db = w.db := by
  have none : (env.host.service call w.db w.host).1.cancelled = [] :=
    List.eq_nil_iff_forall_not_mem.2 fun id => (quiet id).service call w.db w.host
  simp [served, conceded, none, Engine.cancelAll]

theorem db_waited (delay : Double) : (w.waited env delay).db = w.db := by
  have none : (env.host.wait delay w.db w.host).1 = [] :=
    List.eq_nil_iff_forall_not_mem.2 fun id => (quiet id).wait delay w.db w.host
  simp [waited, conceded, none, Engine.cancelAll]

end World

/-! ## Deeds -/

/-- No run is created with an id that is taken. -/
theorem Database.createRun_of_run? {db : Database} {r : Run} {id : String}
    (h : db.run? id = some r) (now : Instant) (d : Definition) (contact node : String)
    (event : Value) (chainDepth : Int) :
    db.createRun now id d contact node event chainDepth = (none, db) := by
  have taken : r ∈ db.runs ∧ r.id = id :=
    ⟨List.mem_of_find?_eq_some h, by simpa using List.find?_some h⟩
  rcases db.createRun_cases now id d contact node event chainDepth with ⟨-, heq⟩ | ⟨free, -⟩
  · exact heq
  · exact absurd taken.2 (free r taken.1).1

/-- Deeds that command nothing of a run but that it is created leave its row alone. -/
theorem Deed.run?_eq {env : Environment σ} {remit : Remit} {w w' : World σ} {id : String} {r : Run}
    (h : Deed env remit w w') (quiet : env.host.CancelsNothing)
    (others : ∀ c, remit.orders c → c.isCreate = false → c.run ≠ id)
    (row : w.db.run? id = some r) : w'.db.run? id = some r := by
  cases h with
  | tick | name | draw | remember | turn => exact row
  | wait delay => rwa [w.db_waited quiet]
  | interrupt call => rwa [w.db_interrupted quiet]
  | serve call => rwa [w.db_served quiet]
  | command call c old _ ordered =>
    refine Database.run?_perform_of_idle ?_ fun hit => others c ordered old hit.1
    rwa [w.db_interrupted quiet]
  | create d contact node event chainDepth =>
    refine Database.run?_perform_of_idle row ?_
    rintro ⟨taken, won⟩
    have refused := Database.createRun_of_run? (taken ▸ row) (w.clock.later 1) d contact node event
      chainDepth
    exact absurd (congrArg (·.1.isSome) refused) (ne_of_eq_of_ne won Bool.noConfusion)
  | record => rwa [World.recorded, w.db_interrupted quiet]

namespace Engine

variable {α : Type} {env : Environment σ} {id : String} {r : Run}
  (quiet : env.host.CancelsNothing)

include quiet

theorem stays_row {remit : Remit} {x : Engine σ α} (hx : Does env remit x)
    (others : ∀ c, remit.orders c → c.isCreate = false → c.run ≠ id) :
    Stays Any (fun w => w.db.run? id = some r) x :=
  (hx.stays fun _ _ h => h.run?_eq quiet others).steps fun _ _ _ => trivial

/-- What only reads leaves every row alone. -/
theorem stays_row_of_reads {x : Engine σ α} (hx : Does env (.reading fun _ => True) x) :
    Stays Any (fun w => w.db.run? id = some r) x :=
  stays_row quiet hx fun _ => False.elim

/-! ## Events -/

/-- A run that is created is another one than those that are there. -/
theorem leads_createRun_row (d : Definition) (contact node : String) (event : Value)
    (chainDepth : Int) :
    Leads Any (fun w => w.db.run? id = some r) (createRun env d contact node event chainDepth)
      (fun made w => w.db.run? id = some r ∧ ∀ o, made = some o → o.id ≠ id)
      fun w => w.db.run? id = some r := by
  unfold createRun
  refine .bind (stays_row_of_reads quiet (does_interrupt .create trivial)) fun _ =>
    .bind (.ofExcept _ (fun _ _ _ hw => hw) fun _ hw => hw) fun depth =>
    .bind (stays_row_of_reads quiet (does_freshId .run)) fun new =>
    .bind (stays_row_of_reads quiet does_now) fun time => ?_
  intro w row
  refine ⟨.single trivial, ?_⟩
  change (w.db.createRun time new d contact node event depth).2.run? id = some r ∧
    ∀ o, (w.db.createRun time new d contact node event depth).1 = some o → o.id ≠ id
  by_cases taken : new = id
  · rw [taken, Database.createRun_of_run? row]
    exact ⟨row, fun _ => nofun⟩
  · have kept : ((RunCommand.create new d contact node event depth).perform time w.db).run? id =
        some r := Database.run?_perform_of_idle row fun hit => taken hit.1
    refine ⟨kept, fun o made => ?_⟩
    rcases w.db.createRun_cases time new d contact node event depth with ⟨-, heq⟩ | ⟨-, heq⟩ <;>
      rw [heq] at made
    · cases made
    · obtain rfl := Option.some.inj made
      exact taken

/-- The runs that an event begins are others than those that are there. -/
theorem leads_startRuns_row (e : Event) : ∀ (l : List (Definition × Node)) (m : MatchResult),
    Leads Any (fun w => w.db.run? id = some r ∧ ∀ run ∈ m.runs, run.id ≠ id)
      (startRuns env e l m) (fun m w => w.db.run? id = some r ∧ ∀ run ∈ m.runs, run.id ≠ id)
      fun w => w.db.run? id = some r
  | [], _ => .pure _ fun _ hw => hw
  | (d, trigger) :: l, m => by
    unfold startRuns
    split
    · refine .assume (fun _ hw => hw.2) fun others => ?_
      refine .bind ((leads_createRun_row quiet d e.contact trigger.id e.toValue e.chainDepth).pre
        fun _ hw => hw.1) fun made => ?_
      split
      · rename_i run
        refine (leads_startRuns_row e l _).pre fun w hw => ⟨hw.1, fun o ho => ?_⟩
        rcases List.mem_append.1 ho with ho | ho
        · exact others o ho
        · exact List.mem_singleton.1 ho ▸ hw.2 run rfl
      · exact (leads_startRuns_row e l _).pre fun w hw => ⟨hw.1, others⟩
    · exact leads_startRuns_row e l m

theorem leads_matching_row (e : Event) :
    Leads Any (fun w => w.db.run? id = some r) (matching env e)
      (fun m w => w.db.run? id = some r ∧ ∀ run ∈ m.runs, run.id ≠ id)
      fun w => w.db.run? id = some r := by
  refine leads_inTurn _ _ (fun _ _ => trivial) (fun _ _ hw => hw) (fun _ _ _ hw => hw)
    (fun _ _ hw => hw) ?_
  refine .bind (stays_row_of_reads quiet (does_candidates e trivial fun _ => trivial))
    fun found => (leads_startRuns_row quiet e found _).pre fun w hw => ⟨hw, fun _ => ?_⟩
  exact fun ho => absurd ho List.not_mem_nil

/-! ## Executions -/

variable {route : List Event → Engine σ Unit}

/-- The execution of another run leaves a row alone if the events that it causes do. -/
theorem stays_runFrom_row_of {resuming : Bool} {other : String} (ne : other ≠ id)
    (hroute : ∀ es, Stays Any (fun w => w.db.run? id = some r) (route es)) :
    Stays Any (fun w => w.db.run? id = some r) (runFrom env route resuming other) := by
  refine stays_runFrom_of (fun call _ => stays_row_of_reads quiet (does_interrupt call trivial))
    (fun run hid => ?_) hroute
  refine (stays_row quiet (does_walkRun run resuming) fun c writes _ => ?_).pre fun _ hw => hw.1
  have target : c.run = run.id := by
    cases c with
    | moveTo | suspend | complete | fail => exact writes
    | create | cancel | claimSuspended | release | claimStale => exact writes.elim
  rwa [target, hid]

theorem stays_advanceAll_row
    (hroute : ∀ es, Stays Any (fun w => w.db.run? id = some r) (route es)) :
    ∀ l : List Run, (∀ run ∈ l, run.id ≠ id) →
      Stays Any (fun w => w.db.run? id = some r) (advanceAll env route l)
  | [], _ => .pure _
  | run :: l, others => .bind (stays_runFrom_row_of quiet (others run List.mem_cons_self) hroute)
      fun _ => .bind (stays_advanceAll_row hroute l fun o ho =>
        others o (List.mem_cons_of_mem _ ho)) fun _ => .pure _

theorem stays_handleWith_row
    (hroute : ∀ es, Stays Any (fun w => w.db.run? id = some r) (route es)) (e : Event) :
    Stays Any (fun w => w.db.run? id = some r) (handleWith env route e) := by
  unfold handleWith
  refine .bind (stays_row_of_reads quiet (does_interrupt .handleEvent trivial)) fun _ => ?_
  split
  · exact .pure _
  · refine Leads.bind (leads_matching_row quiet e) fun m => ?_
    refine .assume (fun _ hw => hw.2) fun others => Leads.pre ?_ fun _ hw => hw.1
    exact Stays.bind (stays_advanceAll_row quiet hroute m.runs others) fun _ => .pure _

theorem stays_handleWithin_row (levels : Nat) (e : Event) :
    Stays Any (fun w => w.db.run? id = some r) (handleWithin env levels e) := by
  induction levels generalizing e with
  | zero => exact stays_handleWith_row quiet (fun _ => .pure ()) e
  | succ levels ih => exact stays_handleWith_row quiet (Upholds.routeEach ih) e

/-- The execution of another run, with all that follows from it, leaves a row alone. -/
theorem stays_runFrom_row {other : String} (resuming : Bool) (ne : other ≠ id) :
    Stays Any (fun w => w.db.run? id = some r)
      (runFrom env (routeFollowUps env) resuming other) :=
  stays_runFrom_row_of quiet ne (Upholds.routeEach fun e => stays_handleWithin_row quiet _ e)

end Engine

end CrmAutomation
