import CrmAutomation.Proofs.Engine.Scripts
import CrmAutomation.Proofs.Store.Recovery

/-!
# The two retry loops agree

An action node is retried by the executor, which records every attempt, and not by
`RetryStrategy.execute`. On a host that answers the calls of actions as a script tells
(`Host.Plays`), the executor makes the attempts that `execute` makes on the same script and with
the same random numbers, waits as long after each of them, and succeeds or fails alike
(`Engine.retries_agree`). Before each attempt the run is running and the trail of the node tells of
failures only (`Attempting`); an attempt that is followed by another one keeps this
(`Engine.sees_tryAction_of_waits`, by induction on the waits).
-/

namespace CrmAutomation

variable {σ α : Type}

/-- The run is on the node to go to, or completed if there is none. -/
def Run.Reached (next : Option String) (r : Run) : Prop :=
  match next with
  | none => r.state = .completed
  | some node => r.state = .running ∧ r.node = node

/-- The numbers and outcomes of the attempts at a node, in the order in which they are stored. -/
def Database.trailOf (db : Database) (run node : String) : List (Int × NodeOutcome) :=
  (db.recordsOf run node).map fun r => (r.attempt, r.outcome)

theorem Database.trailOf_append (db : Database) {r : NodeRecord} :
    { db with records := db.records ++ [r] }.trailOf r.run r.node =
      db.trailOf r.run r.node ++ [(r.attempt, r.outcome)] := by
  simp [trailOf, recordsOf]

namespace Engine

variable {env : Environment σ} {contact : Contact} {script : Nat → Except Failure α}
  {draws : Nat → Double} {place : σ → Nat × Nat} {v : View}

/-! ## Judging an attempt -/

/-- What comes of an attempt once it is recorded. -/
def judge (env : Environment σ) (graph : Graph) (run : Run) (node : Node) (number : Int)
    (again : Walk σ Unit) (r : ActionResult) : Walk σ Unit :=
  if r.ok then do
    Walk.update fun p =>
      { p with outcome := { p.outcome with emitted := p.outcome.emitted ++ r.emitted } }
    goOn env run.id (graph.nextNodeId? node.id .default)
  else if !env.rules.strategy.shouldRetry number none (some r.retryable) then
    giveUp env run node number r
  else do
    let u ← Walk.engine (monadLift (draw env))
    let delay ← Walk.engine (ofExcept (env.rules.strategy.delay u number))
    Walk.engine (wait env delay)
    let state ← Walk.engine (stateOf env run.id)
    if state = some .running then again
    else
      Walk.settle state
      Walk.halt

theorem tryOnce_eq (graph : Graph) (run : Run) (node : Node) (number : Int)
    (again : Walk σ Unit) : tryOnce env graph run node number again = (do
      let r ← Walk.engine (attemptAction env run node number)
      let _ ← Walk.engine (record env run.id node.id node.type.text number r.outcome r.error
        (if r.output.isEmpty then none else some (.obj r.output)))
      judge env graph run node number again r) := rfl

/-- What the last attempt leaves: the run is on the next node after a success, and failed with the
error of the attempt after a failure. -/
def Closes (g : Graph) (node : Node) (n : Nat) (last : Except Failure α) (p : Progress) (r : Run) :
    Prop :=
  match last with
  | .ok _ => r.Reached (g.nextNodeId? node.id .default)
  | .error f => r.state = .failed ∧ p.outcome.error = some (node.type.text ++ " node " ++ node.id
      ++ " failed on attempt " ++ toString (n : Int) ++ " ("
      ++ (if f.isTransient then "retries exhausted" else "fatal error") ++ "): " ++ f.textOrKind)

/-! ## The trail of a node -/

/-- The numbers and outcomes of attempts one to `k` that failed. -/
def failures (k : Nat) : List (Int × NodeOutcome) :=
  (List.range k).map fun i => (((i + 1 : Nat) : Int), .failed)

theorem failures_succ (k : Nat) :
    failures (k + 1) = failures k ++ [(((k + 1 : Nat) : Int), .failed)] := by
  simp [failures, List.range_succ]

/-- The world before attempt `k + 1`: the run is running, and attempts one to `k` have failed. -/
structure Attempting (run : Run) (node : Node) (k : Nat) (v : View) : Prop where
  made : v.made = k
  drawn : v.drawn = k
  row : ∃ r, v.db.run? run.id = some r ∧ r.state = .running
  trail : v.db.trailOf run.id node.id = failures k

theorem Attempting.attempt_le {run : Run} {node : Node} {k : Nat} {v : View}
    (h : Attempting run node k v) {o : NodeRecord} (ho : o ∈ v.db.recordsOf run.id node.id) :
    o.attempt ≤ k := by
  have listed : (o.attempt, o.outcome) ∈ failures k :=
    h.trail ▸ List.mem_map_of_mem (f := fun r : NodeRecord => (r.attempt, r.outcome)) ho
  obtain ⟨i, hi, heq⟩ := List.mem_map.1 listed
  have := List.mem_range.1 hi
  have := congrArg Prod.fst heq
  dsimp only at this
  omega

theorem Attempting.unsent {run : Run} {node : Node} {k : Nat} {v : View}
    (h : Attempting run node k v) : v.db.hasSuccess run.id node.id = false := by
  refine List.any_eq_false.2 fun o ho success => ?_
  have listed : (o.attempt, o.outcome) ∈ failures k :=
    h.trail ▸ List.mem_map_of_mem (f := fun r : NodeRecord => (r.attempt, r.outcome)) ho
  obtain ⟨i, -, heq⟩ := List.mem_map.1 listed
  have failed : NodeOutcome.failed = o.outcome := congrArg Prod.snd heq
  rw [← failed] at success
  exact absurd success (by decide)

/-- How the outcome of an attempt in a script is recorded. -/
def outcomeOf : Except Failure α → NodeOutcome
  | .ok _ => .success
  | .error _ => .failed

theorem outcome_of_reports {o : Except Failure α} {r : ActionResult} (h : Reports o r) :
    r.outcome = outcomeOf o := by
  cases o with
  | ok a =>
    simp only [ActionResult.outcome, h.1, h.2, outcomeOf, if_true, if_neg Bool.false_ne_true]
  | error f =>
    rw [show r = .failed f.textOrKind f.isTransient from h]
    rfl

/-- `n` attempts were made, with these waits between the first of them and now, and all but the
last have failed. -/
structure Tried (place : σ → Nat × Nat) (run : Run) (node : Node) (n : Nat) (waits : List Double)
    (last : NodeOutcome) (w : World σ) : Prop where
  made : (place w.host).1 = n
  waits : w.waits = waits
  trail : w.db.trailOf run.id node.id = failures (n - 1) ++ [((n : Int), last)]

theorem fits_of_le {m n : Nat} (le : m ≤ n) (fits : Database.fitsColumn (n : Int) = true) :
    Database.fitsColumn (m : Int) = true := by
  simp only [Database.fitsColumn, Bool.and_eq_true, decide_eq_true_eq] at *
  have : (0 : Int) ≤ Int.pow 2 63 := by decide
  omega

section Loop

variable (plays : env.host.Plays contact script draws place)
include plays

/-! ## The loop -/

omit plays in
/-- A computation of the engine sees the world alone. -/
theorem walk_sees {β : Type} {x : Engine σ β} {B : β → World σ → Prop} (ps : Progress)
    (hx : Leads Any (World.Shows place v) x B fun _ => False) :
    Walk.Leads Any (fun p w => p = ps ∧ w.Shows place v) (Walk.engine x)
      (fun a p w => p = ps ∧ B a w) fun _ _ _ => False :=
  .engine (E := fun _ _ => False) (fun p => .assume (p := p = ps) (fun _ hw => hw.1) fun hp =>
    hx.conseq (fun _ hw => hw.2) (fun _ _ hw => ⟨hp, hw⟩) fun _ hw => hw) fun _ _ _ h => h

/-- The run is written that is running. -/
theorem sees_progress {run : Run} {r : Run} (call : StorageCall) (change : Instant → Run → Run)
    (hchange : ∀ time r, (change time r).id = r.id) (row : v.db.run? run.id = some r)
    (running : r.state = .running) :
    Leads Any (World.Shows place v)
      (stored env call fun time => Database.updateRun run.id Database.isRunning (change time))
      (fun done w => done = true ∧ ∃ time db, db.run? run.id = some (change time r) ∧
        db.records = v.db.records ∧ w.Shows place { v with db := db }) fun _ => False := by
  refine (sees_stored plays call _).post ?_
  rintro done w ⟨time, rfl, hw⟩
  obtain ⟨written, found⟩ := Database.run?_updateRun_of_run? (hchange time) row
    (show Database.isRunning r = true by simp [Database.isRunning, running])
  exact ⟨written, time, _, found, rfl, hw⟩

theorem sees_goOn {run : Run} {r : Run} {ps : Progress} (next : Option String)
    (row : v.db.run? run.id = some r) (running : r.state = .running) :
    Walk.Leads Any (fun p w => p = ps ∧ w.Shows place v) (goOn env run.id next)
      (fun _ p w => p.outcome.error = ps.outcome.error ∧ ∃ db r', db.run? run.id = some r' ∧
        r'.Reached next ∧ db.records = v.db.records ∧ w.Shows place { v with db := db })
      fun _ _ _ => False := by
  unfold goOn
  cases next with
  | none =>
    refine .bind (walk_sees ps (sees_progress plays .complete
      (fun time r => Database.ended time .completed r.error r) (fun _ _ => rfl) row
      running)) fun done => .assume (q := done = true) (fun _ _ hw => hw.2.1) ?_
    rintro rfl
    refine .settle fun p w hw => ?_
    obtain ⟨rfl, -, time, db, found, records, hw⟩ := hw
    exact ⟨rfl, db, _, found, rfl, records, hw⟩
  | some node =>
    refine .bind (walk_sees ps (sees_progress plays .moveTo
      (fun time r => { r with node := node, updatedAt := time }) (fun _ _ => rfl) row
      running)) fun done => .assume (q := done = true) (fun _ _ hw => hw.2.1) ?_
    rintro rfl
    rw [if_pos rfl]
    refine .update fun p w hw => ?_
    obtain ⟨rfl, -, time, db, found, records, hw⟩ := hw
    exact ⟨rfl, db, _, found, ⟨running, rfl⟩, records, hw⟩

theorem sees_failWalk {run : Run} {r : Run} {ps : Progress} (error : String)
    (row : v.db.run? run.id = some r) (running : r.state = .running) :
    Walk.Leads Any (fun p w => p = ps ∧ w.Shows place v) (failWalk env run.id error)
      (fun _ p w => p.outcome.error = some error ∧ ∃ db r', db.run? run.id = some r' ∧
        r'.state = .failed ∧ db.records = v.db.records ∧ w.Shows place { v with db := db })
      fun _ _ _ => False := by
  have fails (o : Outcome) : Leads Any (World.Shows place v) (failRun env run.id error o)
      (fun o' w => o'.error = some error ∧ ∃ db r', db.run? run.id = some r' ∧
        r'.state = .failed ∧ db.records = v.db.records ∧ w.Shows place { v with db := db })
      fun _ => False := by
    refine .bind (sees_progress plays .fail (fun time =>
      Database.ended time .failed (some (Database.storedError error))) (fun _ _ => rfl) row running)
      fun done => .assume (p := done = true) (fun _ hw => hw.1) ?_
    rintro rfl
    refine .pure _ fun w hw => ?_
    obtain ⟨-, time, db, found, records, hw⟩ := hw
    exact ⟨rfl, db, _, found, rfl, records, hw⟩
  refine .bind (B := fun q p w => p = ps ∧ q = ps ∧ w.Shows place v)
    (.progress fun p w hw => ⟨hw.1, hw.1, hw.2⟩) fun q => ?_
  refine .bind ((walk_sees ps (fails q.outcome)).pre fun _ _ hw => ⟨hw.1, hw.2.2⟩)
    fun o => .update fun p w hw => hw.2

/-- The last attempt leads on, or fails the run. -/
theorem sees_judge_of_stops {g : Graph} {run : Run} {node : Node} {n : Nat} {r : ActionResult}
    {row : Run} {ps : Progress} {again : Walk σ Unit}
    (stops : env.rules.strategy.Stops script n) (reports : Reports (script n) r)
    (hrow : v.db.run? run.id = some row) (running : row.state = .running) :
    Walk.Leads Any (fun p w => p = ps ∧ w.Shows place v) (judge env g run node n again r)
      (fun _ p w => ∃ db r', db.run? run.id = some r' ∧ Closes g node n (script n) p r' ∧
        db.records = v.db.records ∧ w.Shows place { v with db := db }) fun _ _ _ => False := by
  unfold judge
  cases hscript : script n with
  | ok a =>
    rw [hscript] at reports
    rw [if_pos reports.1]
    refine .bind (.update (B := fun _ p w => p = { ps with outcome :=
      { ps.outcome with emitted := ps.outcome.emitted ++ r.emitted } } ∧ w.Shows place v) ?_)
      fun _ => ?_
    · rintro p w ⟨rfl, hw⟩
      exact ⟨rfl, hw⟩
    · refine (sees_goOn plays _ hrow running).conseq (fun _ _ hw => hw) ?_ fun _ _ _ h => h
      rintro _ p w ⟨-, db, r', found, reached, records, hw⟩
      exact ⟨db, r', found, reached, records, hw⟩
  | error f =>
    rw [hscript] at reports
    obtain rfl : r = .failed f.textOrKind f.isTransient := reports
    have ended := RetryStrategy.shouldRetry_of_stops stops hscript
    rw [RetryStrategy.shouldRetry_eq] at ended
    rw [if_neg (by exact Bool.false_ne_true), if_pos (by
      simp only [ActionResult.failed, ended, Bool.not_false])]
    refine (sees_failWalk plays _ hrow running).conseq (fun _ _ hw => hw) ?_ fun _ _ _ h => h
    rintro _ p w ⟨error, db, r', found, failed, records, hw⟩
    exact ⟨db, r', found, ⟨failed, error⟩, records, hw⟩

/-- An attempt that does not stop is followed by a wait, if that can be computed. -/
theorem sees_judge_of_not_stops {g : Graph} {run : Run} {node : Node} {n : Nat} {r : ActionResult}
    {row : Run} {ps : Progress} {again : Walk σ Unit} {C : Unit → Progress → World σ → Prop}
    {X : Halt → Progress → World σ → Prop} (stops : ¬ env.rules.strategy.Stops script n)
    (le : (n : Int) ≤ env.rules.strategy.limit) (pos : 1 ≤ n) (drawn : v.drawn + 1 = n)
    (reports : Reports (script n) r)
    (hrow : v.db.run? run.id = some row) (running : row.state = .running)
    (retried : ∀ d, env.rules.strategy.delay (draws n) n = .ok d →
      Walk.Leads Any (fun p w => p = ps ∧
        w.Shows place { v with waits := v.waits ++ [d], drawn := n }) again C X)
    (unwaitable : ∀ f w, env.rules.strategy.delay (draws n) n = .error f →
      w.Shows place { v with drawn := n } → X (.failed f) ps w) :
    Walk.Leads Any (fun p w => p = ps ∧ w.Shows place v) (judge env g run node n again r) C X := by
  obtain ⟨-, f, hf, -⟩ := RetryStrategy.exists_of_not_stops stops
  rw [hf] at reports
  obtain rfl : r = .failed f.textOrKind f.isTransient := reports
  have more := RetryStrategy.shouldRetry_of_not_stops stops le pos hf
  rw [RetryStrategy.shouldRetry_eq] at more
  unfold judge
  rw [if_neg (by exact Bool.false_ne_true), if_neg (by
    simp only [ActionResult.failed, more, Bool.not_true, Bool.false_eq_true, not_false_iff])]
  refine .bind (B := fun u p w => u = draws n ∧ p = ps ∧ w.Shows place { v with drawn := n })
    ((walk_sees ps (sees_draw plays)).conseq (fun _ _ hw => hw) ?_ fun _ _ _ h => h.elim)
    fun u => ?_
  · rintro u p w ⟨hp, hu, hw⟩
    rw [drawn] at hu hw
    exact ⟨hu, hp, hw⟩
  refine .assume (q := u = draws n) (fun _ _ hw => hw.1) ?_
  rintro rfl
  refine .pre (A := fun p w => p = ps ∧ w.Shows place { v with drawn := n }) ?_ fun _ _ hw => hw.2
  cases hd : env.rules.strategy.delay (draws n) n with
  | error e =>
    rintro p w ⟨rfl, hw⟩
    exact ⟨.refl, unwaitable e w hd hw⟩
  | ok d =>
    refine .bind (B := fun d' p w => d' = d ∧ p = ps ∧ w.Shows place { v with drawn := n })
      (fun p w hw => ⟨.refl, rfl, hw⟩) fun d' => .assume (q := d' = d) (fun _ _ hw => hw.1) ?_
    rintro rfl
    refine .bind ((walk_sees ps (sees_wait plays d')).conseq (fun _ _ hw => hw.2)
      (fun _ _ _ hw => hw) fun _ _ _ h => h.elim) fun _ => ?_
    refine .bind ((walk_sees ps (sees_look plays .getState _)).conseq (fun _ _ hw => hw)
      (fun _ _ _ hw => hw) fun _ _ _ h => h.elim) fun state => ?_
    refine .assume (q := state = some .running) (fun _ _ hw => ?_) ?_
    · exact hw.2.1.trans (by simp only [hrow, Option.map_some, running])
    · rintro rfl
      rw [if_pos rfl]
      exact (retried d' hd).pre fun _ _ hw => ⟨hw.1, hw.2.2⟩

/-! ## All attempts -/

section Attempts

variable {g : Graph} {run : Run} {node : Node} {ps : Progress} {k : Nat}
  {C : Unit → Progress → World σ → Prop} {X : Halt → Progress → World σ → Prop}
  (acts : Acts node.config contact) (inTime : node.InTime env.rules)
include acts inTime

/-- An attempt is made and recorded before it is judged. -/
theorem sees_tryOnce (h : Attempting run node k v)
    (fits : Database.fitsColumn ((k + 1 : Nat) : Int) = true) {again : Walk σ Unit}
    (judged : ∀ r db, Reports (script (k + 1)) r →
      (∃ row, db.run? run.id = some row ∧ row.state = .running) →
      db.trailOf run.id node.id = failures k ++ [(((k + 1 : Nat) : Int), r.outcome)] →
      Walk.Leads Any (fun p w => p = ps ∧ w.Shows place { v with db := db, made := k + 1 })
        (judge env g run node ((k + 1 : Nat) : Int) again r) C X) :
    Walk.Leads Any (fun p w => p = ps ∧ w.Shows place v)
      (tryOnce env g run node ((k + 1 : Nat) : Int) again) C X := by
  rw [tryOnce_eq]
  refine .bind ((walk_sees ps (sees_attemptAction plays _ acts inTime h.unsent)).conseq
    (fun _ _ hw => hw) (fun _ _ _ hw => hw) fun _ _ _ h => h.elim) fun r => ?_
  rw [h.made]
  refine .assume (q := Reports (script (k + 1)) r) (fun _ _ hw => hw.2.1) fun reports => ?_
  have first : ∀ o ∈ v.db.recordsOf run.id node.id, o.attempt ≠ ((k + 1 : Nat) : Int) := by
    intro o ho heq
    have := h.attempt_le ho
    omega
  refine .bind (B := fun _ p w => ∃ db, (p = ps ∧
      w.Shows place { v with db := db, made := k + 1 }) ∧
      (∃ row, db.run? run.id = some row ∧ row.state = .running) ∧
      db.trailOf run.id node.id = failures k ++ [(((k + 1 : Nat) : Int), r.outcome)])
    ((walk_sees ps (sees_record plays (v := { v with made := k + 1 }) (r := ⟨run.id, node.id,
      node.type.text, ((k + 1 : Nat) : Int), r.outcome, r.error,
      if r.output.isEmpty then none else some (.obj r.output), default⟩) fits first)).conseq
      (fun _ _ hw => ⟨hw.1, hw.2.2⟩) ?_ fun _ _ _ h => h.elim) fun _ => ?_
  · rintro _ p w ⟨hp, time, hw⟩
    refine ⟨_, ⟨hp, hw⟩, h.row, ?_⟩
    exact (Database.trailOf_append (r := ⟨run.id, node.id, node.type.text, ((k + 1 : Nat) : Int),
      r.outcome, r.error, _, time⟩) _).trans (by rw [h.trail])
  · rintro p w ⟨db, hw, row, trail⟩
    exact judged r db reports row trail p w hw

/-- The attempts that are followed by a wait lead to the one after them. -/
theorem sees_tryAction_of_waits {waits : List Double} {left : Nat} (h : Attempting run node k v)
    (hwaits : env.rules.strategy.Waits script draws (k + 1) waits)
    (le : ((k + 1 + waits.length : Nat) : Int) ≤ env.rules.strategy.limit)
    (fits : Database.fitsColumn ((k + 1 + waits.length : Nat) : Int) = true)
    (hleft : waits.length ≤ left)
    (rest : ∀ j m v', j = k + waits.length → m + waits.length = left → Attempting run node j v' →
      v'.waits = v.waits ++ waits → Walk.Leads Any (fun p w => p = ps ∧ w.Shows place v')
        (tryAction env g run node m ((j + 1 : Nat) : Int)) C X) :
    Walk.Leads Any (fun p w => p = ps ∧ w.Shows place v)
      (tryAction env g run node left ((k + 1 : Nat) : Int)) C X := by
  induction waits generalizing k left v with
  | nil => exact rest k left v rfl rfl h (List.append_nil _).symm
  | cons d waits ih =>
    obtain ⟨stops, hd, later⟩ := hwaits
    rw [List.length_cons] at le fits hleft
    obtain ⟨left, rfl⟩ : ∃ m, left = m + 1 := ⟨left - 1, by omega⟩
    refine sees_tryOnce plays acts inTime h (fits_of_le (by omega) fits)
      fun r db reports row trail => ?_
    obtain ⟨row, hrow, running⟩ := row
    refine sees_judge_of_not_stops plays stops (by omega) (by omega)
      (by rw [h.drawn]) reports hrow running (fun d' hd' => ?_) fun f w hf => ?_
    · obtain rfl : d' = d := Except.ok.inj (hd'.symm.trans hd)
      have next : Attempting run node (k + 1)
          { v with db := db, made := k + 1, waits := v.waits ++ [d'], drawn := k + 1 } := by
        refine ⟨rfl, rfl, ⟨row, hrow, running⟩, ?_⟩
        obtain ⟨-, f, hf, -⟩ := RetryStrategy.exists_of_not_stops stops
        rw [hf] at reports
        rw [trail, failures_succ, show r = .failed f.textOrKind f.isTransient from reports]
        rfl
      refine ih next later (by omega) (fits_of_le (by omega) fits) (by omega)
        fun j m v' hj hm hv' made => rest j m v' ?_ ?_ hv' ?_
      · rw [List.length_cons]
        omega
      · rw [List.length_cons]
        omega
      · rw [made, List.append_assoc, List.singleton_append]
    · rw [hd] at hf
      cases hf

/-- All attempts at an action up to the one that stops. -/
theorem sees_tryAction_of_stops {waits : List Double} {left n : Nat} (h : Attempting run node 0 v)
    (hwaits : env.rules.strategy.Waits script draws 1 waits) (hn : n = waits.length + 1)
    (le : (n : Int) ≤ env.rules.strategy.limit) (fits : Database.fitsColumn (n : Int) = true)
    (hleft : waits.length ≤ left) (stops : env.rules.strategy.Stops script n) :
    Walk.Leads Any (fun p w => p = ps ∧ w.Shows place v) (tryAction env g run node left 1)
      (fun _ p w => Tried place run node n (v.waits ++ waits) (outcomeOf (script n)) w ∧
        ∃ r, w.db.run? run.id = some r ∧ Closes g node n (script n) p r) fun _ _ _ => False := by
  subst hn
  refine sees_tryAction_of_waits plays acts inTime h hwaits (by omega)
    (fits_of_le (by omega) fits) hleft fun j m v' hj hm hv' made => ?_
  obtain rfl : j = waits.length := by omega
  have last (again : Walk σ Unit) : Walk.Leads Any (fun p w => p = ps ∧ w.Shows place v')
      (tryOnce env g run node ((waits.length + 1 : Nat) : Int) again)
      (fun _ p w => Tried place run node (waits.length + 1) (v.waits ++ waits)
          (outcomeOf (script (waits.length + 1))) w ∧
        ∃ r, w.db.run? run.id = some r ∧ Closes g node (waits.length + 1)
          (script (waits.length + 1)) p r) fun _ _ _ => False :=
    sees_tryOnce plays acts inTime hv' fits fun r db reports row trail => by
      obtain ⟨row, hrow, running⟩ := row
      refine (sees_judge_of_stops plays stops reports hrow running).conseq (fun _ _ hw => hw)
        ?_ fun _ _ _ h => h
      rintro _ p w ⟨db', r', found, closes, records, hdb, hw, hplace⟩
      refine ⟨⟨congrArg Prod.fst hplace, hw.trans made, ?_⟩, r', hdb ▸ found, closes⟩
      have kept : w.db.trailOf run.id node.id = db.trailOf run.id node.id := by
        rw [hdb]
        simp only [Database.trailOf, Database.recordsOf, records]
      rw [kept, trail, outcome_of_reports reports]
      rfl
  cases m with
  | zero => exact last _
  | succ m => exact last _

/-- All attempts at an action up to one whose wait cannot be computed. -/
theorem sees_tryAction_of_unwaitable {waits : List Double} {left n : Nat} {f : Failure}
    (h : Attempting run node 0 v) (hwaits : env.rules.strategy.Waits script draws 1 waits)
    (hn : n = waits.length + 1) (le : (n : Int) ≤ env.rules.strategy.limit)
    (fits : Database.fitsColumn (n : Int) = true) (hleft : waits.length ≤ left)
    (stops : ¬ env.rules.strategy.Stops script n)
    (unwaitable : env.rules.strategy.delay (draws n) n = .error f) :
    Walk.Leads Any (fun p w => p = ps ∧ w.Shows place v) (tryAction env g run node left 1)
      (fun _ _ _ => False) (fun h _ w => h = .failed f ∧
        Tried place run node n (v.waits ++ waits) .failed w) := by
  subst hn
  refine sees_tryAction_of_waits plays acts inTime h hwaits (by omega)
    (fits_of_le (by omega) fits) hleft fun j m v' hj hm hv' made => ?_
  obtain rfl : j = waits.length := by omega
  have last (again : Walk σ Unit) : Walk.Leads Any (fun p w => p = ps ∧ w.Shows place v')
      (tryOnce env g run node ((waits.length + 1 : Nat) : Int) again) (fun _ _ _ => False)
      (fun h _ w => h = .failed f ∧
        Tried place run node (waits.length + 1) (v.waits ++ waits) .failed w) :=
    sees_tryOnce plays acts inTime hv' fits fun r db reports row trail => by
      obtain ⟨row, hrow, running⟩ := row
      refine sees_judge_of_not_stops plays stops le (by omega) (by rw [hv'.drawn]) reports hrow
        running (fun d hd => ?_) fun f' w hf' hw => ?_
      · rw [unwaitable] at hd
        cases hd
      · obtain rfl : f' = f := Except.error.inj (hf'.symm.trans unwaitable)
        obtain ⟨hdb, hwaits, hplace⟩ := hw
        refine ⟨rfl, congrArg Prod.fst hplace, hwaits.trans made, ?_⟩
        obtain ⟨-, g, hg, -⟩ := RetryStrategy.exists_of_not_stops stops
        rw [hdb, trail, outcome_of_reports reports, hg]
        rfl
  cases m with
  | zero => exact last _
  | succ m => exact last _

omit acts inTime in
/-- A node without records is tried from the first attempt on. -/
theorem sees_executeAction (attempts : 1 ≤ env.rules.strategy.maxAttempts)
    (h : Attempting run node 0 v)
    (tried : Walk.Leads Any (fun p w => p = ps ∧ w.Shows place v)
      (tryAction env g run node (env.rules.strategy.maxAttempts - 1).toNat 1) C X) :
    Walk.Leads Any (fun p w => p = ps ∧ w.Shows place v) (executeAction env g run node) C X := by
  have first : v.db.nextAttempt run.id node.id = 1 := by
    have empty : v.db.recordsOf run.id node.id = [] := List.map_eq_nil_iff.1 h.trail
    rw [Database.nextAttempt, empty]
    rfl
  refine .bind ((walk_sees ps (sees_look plays .nextAttempt _)).conseq (fun _ _ hw => hw)
    (fun _ _ _ hw => hw) fun _ _ _ h => h.elim) fun number => ?_
  refine .assume (q := number = 1) (fun _ _ hw => hw.2.1.trans first) ?_
  rintro rfl
  rw [if_neg (Int.not_lt.mpr attempts)]
  refine .bind (B := fun b p w => b = false ∧ p = ps ∧ w.Shows place v)
    (.pure _ fun _ _ hw => ⟨rfl, hw.1, hw.2.2⟩) fun b => .assume (q := b = false)
      (fun _ _ hw => hw.1) ?_
  rintro rfl
  exact tried.pre fun _ _ hw => hw.2

end Attempts

end Loop

/-! ## Agreement -/

/-- Retrying an operation, and retrying an action node. Whatever the outcomes of the attempts are,
there is a last one: the first attempt that succeeds, fails for good or is the last one allowed,
or, for a base delay that is a double, attempt 1025 if it comes before. `execute` calls the
operation so often, tells each failed attempt before the wait after it, and comes to the outcome of
the last attempt; only at attempt 1025 it comes to the overflow of its wait. The executor does the
same to an action node without records whose run is running: on a host whose services answer by the
same script, it makes and records the same attempts, waits as long after each, and leads on or
fails alike. -/
theorem retries_agree (s : RetryStrategy) (attempts : 1 ≤ s.maxAttempts)
    (script : Nat → Except Failure α) (draws : Nat → Double) :
    ∃ (waits : List Double) (k : Nat), k = waits.length + 1 ∧ (k : Int) ≤ s.limit ∧
      (∀ j, 1 ≤ j → j < k → ¬ s.Stops script j) ∧
      (∀ (i : Nat) (hi : i < waits.length), s.delay (draws (1 + i)) (1 + i : Nat) = .ok waits[i]) ∧
      (s.Stops script k ∨ s.policy = .exponential ∧ s.wholeBase = false ∧
        (k : Int) = RetryStrategy.maxDoublings + 1) ∧
      s.execute (RetryStrategy.Tape.draw draws) RetryStrategy.Tape.wait
          (RetryStrategy.Tape.call script) {} =
        (if s.Stops script k then
          (script k, ⟨k, waits.length, RetryStrategy.Tape.logFrom script 1 waits⟩)
        else (.error RetryStrategy.overflow, ⟨k, k, RetryStrategy.Tape.logFrom script 1 waits⟩)) ∧
      ∀ {σ : Type} (env : Environment σ) (contact : Contact) (place : σ → Nat × Nat) (g : Graph)
        (run : Run) (node : Node) (p : Progress) (w : World σ), env.rules.strategy = s →
        env.host.Plays contact script draws place → Acts node.config contact →
        node.InTime env.rules → Database.fitsColumn (k : Int) = true →
        w.db.recordsOf run.id node.id = [] →
        (∃ r, w.db.run? run.id = some r ∧ r.state = .running) → place w.host = (0, 0) →
        ∃ result p' w', (executeAction env g run node).run (p, w) = (result, p', w') ∧
          (s.Stops script k → result = .ok () ∧
            Tried place run node k (w.waits ++ waits) (outcomeOf (script k)) w' ∧
            ∃ r, w'.db.run? run.id = some r ∧ Closes g node k (script k) p' r) ∧
          (¬ s.Stops script k → result = .error (.failed RetryStrategy.overflow) ∧
            Tried place run node k (w.waits ++ waits) .failed w') := by
  obtain ⟨waits, hwaits, le, ends⟩ :=
    s.exists_waits script draws 1 (RetryStrategy.one_le_limit attempts)
  obtain ⟨stopping, overflowing⟩ := RetryStrategy.execute_course attempts hwaits le
  rw [Nat.add_comm 1] at *
  have overflows (stops : ¬ s.Stops script (waits.length + 1)) :
      s.delay (draws (waits.length + 1)) (waits.length + 1 : Nat) = .error RetryStrategy.overflow ∧
      s.policy = .exponential ∧ s.wholeBase = false ∧
      ((waits.length + 1 : Nat) : Int) = RetryStrategy.maxDoublings + 1 := by
    obtain ⟨f, hf⟩ := (ends.resolve_left stops).2
    obtain ⟨policy, double, late, rfl⟩ := RetryStrategy.of_delay_eq_error hf
    refine ⟨hf, policy, double, ?_⟩
    -- The attempt before this one was followed by a wait, so it is the first to overflow.
    by_contra later
    have beyond : RetryStrategy.maxDoublings < ((1 + (waits.length - 1) : Nat) : Int) := by omega
    have pos : (0 : Int) < RetryStrategy.maxDoublings := by decide
    have waited := hwaits.getElem (waits.length - 1) (by omega)
    rw [RetryStrategy.delay_of_maxDoublings_lt policy double beyond] at waited
    cases waited
  refine ⟨waits, _, rfl, le, fun j hj hlt => hwaits.not_stops j hj (by omega),
    fun i hi => hwaits.getElem i hi, ?_, ?_, ?_⟩
  · by_cases stops : s.Stops script (waits.length + 1)
    · exact .inl stops
    · exact .inr (overflows stops).2
  · split_ifs with stops
    · exact stopping stops
    · exact overflowing stops _ (overflows stops).1
  · intro σ env contact place g run node p w hs plays acts inTime fits fresh row start
    subst hs
    have shows : w.Shows place ⟨w.db, w.waits, 0, 0⟩ := ⟨rfl, rfl, start⟩
    have begins : Attempting run node 0 ⟨w.db, w.waits, 0, 0⟩ :=
      ⟨rfl, rfl, row, by rw [Database.trailOf, fresh]; rfl⟩
    have left := RetryStrategy.limit_le attempts
    refine ⟨_, _, _, rfl, fun stops => ?_, fun stops => ?_⟩
    · obtain ⟨-, hend⟩ := sees_executeAction plays (g := g) attempts begins
        (sees_tryAction_of_stops plays acts inTime begins hwaits rfl le fits (by omega) stops)
        p w ⟨rfl, shows⟩
      split at hend
      · exact ⟨‹_›, hend⟩
      · exact hend.elim
    · obtain ⟨-, hend⟩ := sees_executeAction plays (g := g) attempts begins
        (sees_tryAction_of_unwaitable plays acts inTime begins hwaits rfl le fits (by omega) stops
          (overflows stops).1) p w ⟨rfl, shows⟩
      split at hend
      · exact hend.elim
      · obtain ⟨rfl, tried⟩ := hend
        exact ⟨‹_›, tried⟩

/-- A node that gives a tag. -/
def tagNode : Node := ⟨"tag", .addTag "vip", ""⟩

/-- One timeout, then successes. -/
def flaky : Nat → Except Failure Unit := fun n =>
  if n = 1 then .error (.system .timeout "") else .ok ()

/-- A deployment on a host that plays `flaky`. -/
def flakyEnv : Environment (Nat × Nat) :=
  ⟨scripted default flaky fun _ => RetryStrategy.half, ({} : Settings).rules⟩

/-- A world with a running run and without records. -/
def untried : World (Nat × Nat) := ⟨Database.begun, ⟨9⟩, [], [], [], [], (0, 0)⟩

/-- After one timeout both loops succeed with the second attempt, and the executor records both. -/
theorem retries_agree_of_flaky :
    ∃ waits : List Double, waits.length = 1 ∧
      (flakyEnv.rules.strategy.execute (RetryStrategy.Tape.draw fun _ => RetryStrategy.half)
        RetryStrategy.Tape.wait (RetryStrategy.Tape.call flaky) {}).1 = .ok () ∧
      ∃ p' w', (executeAction flakyEnv ⟨[tagNode], []⟩ { (default : Run) with id := "run-1" }
          tagNode).run (⟨"tag", false, { run := "run-1" }⟩, untried) = (.ok (), p', w') ∧
        w'.waits = waits ∧
        w'.db.trailOf "run-1" "tag" = [(1, .failed), (2, .success)] ∧
        ∃ r, w'.db.run? "run-1" = some r ∧ r.state = .completed := by
  obtain ⟨waits, k, hk, -, before, -, ends, hexecute, executor⟩ :=
    retries_agree flakyEnv.rules.strategy (by decide) flaky fun _ => RetryStrategy.half
  -- The second attempt is the first that stops.
  have second : flakyEnv.rules.strategy.Stops flaky 2 := .inr rfl
  have first : ¬ flakyEnv.rules.strategy.Stops flaky 1 := by decide
  have atMost : k ≤ 2 := by
    by_contra more
    exact before 2 (by decide) (by omega) second
  obtain rfl : k = 2 := by
    rcases Nat.lt_or_ge k 2 with less | enough
    · obtain rfl : k = 1 := by omega
      rcases ends with stops | ⟨-, -, late⟩
      · exact absurd stops first
      · exact absurd late (by decide)
    · omega
  have plays : flakyEnv.host.Plays default flaky (fun _ => RetryStrategy.half) id :=
    scripted_plays default flaky fun _ => RetryStrategy.half
  obtain ⟨result, p', w', hrun, stopped, -⟩ := executor flakyEnv default id ⟨[tagNode], []⟩
    { (default : Run) with id := "run-1" } tagNode ⟨"tag", false, { run := "run-1" }⟩ untried rfl
    plays rfl
    (by rintro kind hkind; obtain rfl := Option.some.inj hkind; decide +kernel) (by decide) rfl
    ⟨_, rfl, rfl⟩ rfl
  obtain ⟨rfl, ⟨-, hwaits, trail⟩, r, hr, completed⟩ := stopped second
  refine ⟨waits, by omega, ?_, p', w', hrun, hwaits, trail, r, hr, completed⟩
  rw [hexecute, if_pos second]
  rfl

end Engine

end CrmAutomation
