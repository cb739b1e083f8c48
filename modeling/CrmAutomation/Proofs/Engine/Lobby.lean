import CrmAutomation.Proofs.Engine.Locks
import CrmAutomation.Proofs.Engine.Termination

/-!
# Calls that wait for their turn

Events come and runs are started by hand while others are at it. A call (`Job`) prepares itself,
asks for the lock of its contact, and has a section in which it creates runs (`Work`). It may be
kept waiting wherever it waits for something: before it has the lock, after it has read the
definitions, and between one run and the next. A `Lobby` has all calls that are in progress, and a
`Move` is what happens next: another call comes, one goes on, one is broken off, or the world
changes. A call that is left alone does what the engine does at once (`Lobby.alone`).

Whatever the moves are, one call at a time is inside the section of a contact, calls enter in the
order in which they came, and the table of locks has an entry for a contact exactly while a call
holds or awaits it (`Lobby.one_at_a_time`).
-/

namespace CrmAutomation

variable {σ : Type}

/-! ## Calls in parts -/

/-- What a call is about: an event, or a run to be started by hand. -/
inductive Job where
  | event (e : Event)
  | manual (d : Definition) (contact : String) (payload : Members)

/-- What is still to be done in the section of a call. -/
inductive Work where
  | seek (e : Event)
  | create (e : Event) (rest : List (Definition × Node)) (r : MatchResult)
  | start (d : Definition) (contact node : String) (event : Value)

/-- What the section of a call has brought. -/
inductive Product where
  | matched (r : MatchResult)
  | started (run : Option Run)

namespace Engine

variable (env : Environment σ)

/-- What a call does before its section: it is done already, or it asks for the lock of a contact
of an organization. -/
def prepare : Job → Engine σ (Product ⊕ (String × String) × Work)
  | .event e => do
    interrupt env .handleEvent
    if env.rules.maxChainDepth < e.chainDepth then return .inl (.matched (.tooDeep e.id))
    return .inr ((e.organization, e.contact), .seek e)
  | .manual d contact payload => do
    match (← usableGraph? d).bind Graph.trigger? with
    | none => throw (.invalidGraph ["definition " ++ d.id ++ " has no usable trigger"])
    | some trigger =>
      let type ← ofExcept (triggerType trigger)
      let id ← freshId env .event
      let time ← now
      let event : Event := {
        type := type
        organization := d.organization
        contact := contact
        payload := Members.merge payload [("manual", .bool true)]
        chainDepth := 0
        id := id
        occurredAt := time }
      return .inr ((d.organization, contact), .start d contact trigger.id event.toValue)

/-- A section up to where it waits again. -/
def proceed : Work → Engine σ (Product ⊕ Work)
  | .seek e => do return .inr (.create e (← candidates env e) { event := e.id })
  | .create _ [] r => return .inl (.matched r)
  | .create e ((d, trigger) :: rest) r => do
    if e.passesAll trigger.config.filters then
      match ← createRun env d e.contact trigger.id e.toValue e.chainDepth with
      | some run =>
        return .inr (.create e rest { r with matched := r.matched + 1, runs := r.runs ++ [run] })
      | none =>
        return .inr
          (.create e rest { r with matched := r.matched + 1, deduplicated := r.deduplicated + 1 })
    else return .inr (.create e rest r)
  | .start d contact node event => do
    return .inl (.started (← createRun env d contact node event 0))

/-- A section from where it is to its end. -/
def complete : Work → Engine σ Product
  | .seek e => .matched <$> (do startRuns env e (← candidates env e) { event := e.id })
  | .create e rest r => .matched <$> startRuns env e rest r
  | .start d contact node event => .started <$> createRun env d contact node event 0

/-- A call, without what it does after its section. -/
def perform (job : Job) : Engine σ Product := do
  match ← prepare env job with
  | .inl product => return product
  | .inr (key, work) => inTurn key.1 key.2 (complete env work)

end Engine

/-! ## Calls side by side -/

/-- The calls that are in progress in a world: those who came to the locks, what each has still to
do, and how those ended that have. -/
structure Lobby (σ : Type) where
  world : World σ
  hall : Hall (String × String)
  works : Nat → Option Work
  ended : List (Nat × Except Failure Product)

/-- What happens next. -/
inductive Move (σ : Type) where
  | come (job : Job)
  | go (caller : Nat)
  | raise (caller : Nat) (f : Failure)
  | elsewhere (change : World σ → World σ)

namespace Lobby

/-- A world in which no call is in progress. -/
def quiet (w : World σ) : Lobby σ :=
  { world := { w with turns := [] }, hall := {}, works := fun _ => none, ended := [] }

/-- A call has ended that never asked for a lock. -/
def refuse (r : Except Failure Product) (l : Lobby σ) : Lobby σ :=
  { l with
    hall := { l.hall with came := l.hall.came + 1 }
    ended := l.ended ++ [(l.hall.came, r)] }

/-- A call asks for its lock. -/
def arrive (key : String × String) (work : Work) (l : Lobby σ) : Lobby σ :=
  { l with
    world := { l.world with turns := l.world.turns.arrive key l.hall.came }
    hall := l.hall.arrive key
    works := Function.update l.works l.hall.came (some work) }

/-- A call ends, whether it has its lock or waits for it. -/
def depart (p : Pass (String × String)) (r : Except Failure Product) (l : Lobby σ) : Lobby σ :=
  { world := { l.world with turns := l.world.turns.leave p.key p.number }
    hall := l.hall.leave p
    works := Function.update l.works p.number none
    ended := l.ended ++ [(p.number, r)] }

/-- The call that is in progress under a number. -/
def pass? (n : Nat) (l : Lobby σ) : Option (Pass (String × String)) :=
  l.hall.passes.find? (·.number = n)

variable (env : Environment σ)

/-- A call comes. -/
def come (job : Job) (l : Lobby σ) : Lobby σ :=
  let (r, after) := (Engine.prepare env job).run l.world
  let l := { l with world := after }
  match r with
  | .error f => l.refuse (.error f)
  | .ok (.inl product) => l.refuse (.ok product)
  | .ok (.inr (key, work)) => l.arrive key work

/-- A call that is inside goes on with its work. -/
def advance (p : Pass (String × String)) (work : Work) (l : Lobby σ) : Lobby σ :=
  let (r, after) := (Engine.proceed env work).run l.world
  let l := { l with world := after }
  match r with
  | .error f => l.depart p (.error f)
  | .ok (.inl product) => l.depart p (.ok product)
  | .ok (.inr next) => { l with works := Function.update l.works p.number (some next) }

/-- A call goes on: inside with its work, and else into its section, once it is its turn. -/
def go (n : Nat) (l : Lobby σ) : Lobby σ :=
  match l.pass? n with
  | none => l
  | some p =>
    if p.inside then
      match l.works n with
      | none => l
      | some work => l.advance env p work
    else { l with hall := l.hall.enter p }

/-- A call is broken off. -/
def raise (n : Nat) (f : Failure) (l : Lobby σ) : Lobby σ :=
  match l.pass? n with
  | none => l
  | some p => l.depart p (.error f)

/-- The lobby after a move. -/
def move (l : Lobby σ) : Move σ → Lobby σ
  | .come job => l.come env job
  | .go n => l.go env n
  | .raise n f => l.raise n f
  | .elsewhere change => { l with world := { change l.world with turns := l.world.turns } }

/-- The lobby after moves. -/
def run (l : Lobby σ) (moves : List (Move σ)) : Lobby σ := moves.foldl (move env) l

theorem run_nil (l : Lobby σ) : l.run env [] = l := rfl

theorem run_cons (m : Move σ) (moves : List (Move σ)) (l : Lobby σ) :
    l.run env (m :: moves) = (l.move env m).run env moves := rfl

end Lobby

/-! ## Parts of calls make whole calls -/

namespace Engine

variable {env : Environment σ} {α β : Type}

/-- A section is what it does until it waits, and then the rest of it. -/
theorem complete_eq (work : Work) : complete env work = (do
    match ← proceed env work with
    | .inl product => return product
    | .inr next => complete env next) := by
  cases work with
  | seek e => simp [complete, proceed]
  | create e rest r =>
    cases rest with
    | nil => simp [complete, proceed, startRuns]
    | cons found rest =>
      simp only [complete, proceed, startRuns]
      split
      · simp only [map_bind, bind_assoc]
        refine bind_congr fun created => ?_
        cases created <;> simp
      · simp
  | start d contact node event => simp [complete, proceed]

theorem run_inTurn (organization contact : String) (x : Engine σ α) (w : World σ) :
    (inTurn organization contact x).run w =
      let key := (organization, contact)
      let caller := (w.turns.callers key).length
      let result := x.run { w with turns := w.turns.arrive key caller }
      (result.1, { result.2 with turns := result.2.turns.leave key caller }) := by
  rfl

theorem run_map (f : α → β) (x : Engine σ α) (w : World σ) :
    (f <$> x).run w = ((x.run w).1.map f, (x.run w).2) := by
  rw [map_eq_pure_bind, run_bind]
  rcases x.run w with ⟨_ | a, w'⟩ <;> rfl

/-- What is made of a value may be made of it in the turn or after it. -/
theorem inTurn_map (organization contact : String) (f : α → β) (x : Engine σ α) :
    inTurn organization contact (f <$> x) = f <$> inTurn organization contact x := by
  refine ExceptT.ext (funext fun w => ?_)
  simp only [run_map, run_inTurn]

/-- An event is handled by performing its call, after which its runs are executed. -/
theorem handleWith_eq_perform (route : List Event → Engine σ Unit) (e : Event) :
    handleWith env route e = (do
      match ← perform env (.event e) with
      | .matched r => return { r with outcomes := ← advanceAll env route r.runs }
      | .started _ => return .tooDeep e.id) := by
  simp only [handleWith, perform, prepare, bind_assoc]
  congr 1
  funext _
  split
  · simp [MatchResult.tooDeep, advanceAll]
  · simp only [pure_bind, complete, inTurn_map, bind_map_left]

/-- A run is started by hand by performing the call, after which the run is executed. -/
theorem startManually_eq_perform (d : Definition) (contact : String) (payload : Members) :
    startManually env d contact payload = (do
      match ← perform env (.manual d contact payload) with
      | .started (some run) => return some (← Engine.advance env run.id)
      | _ => return none) := by
  simp only [startManually, perform, prepare, bind_assoc]
  congr 1
  funext found
  cases found.bind Graph.trigger? with
  | none => rfl
  | some trigger =>
    simp only [bind_assoc, pure_bind, complete, inTurn_map, bind_map_left]
    refine bind_congr fun type => bind_congr fun id => bind_congr fun time =>
      bind_congr fun created => ?_
    cases created <;> rfl

/-! ## What the parts of calls leave as it is -/

section Leaving

variable {γ : Type} {f : World σ → γ}

/-- What `f` tells of the world is the same afterwards. -/
def Leaves (f : World σ → γ) (x : Engine σ α) : Prop := ∀ w, f (x.run w).2 = f w

namespace Leaves

theorem pure (a : α) : Leaves f (Pure.pure a : Engine σ α) := fun _ => rfl

theorem throw (e : Failure) : Leaves f (throw e : Engine σ α) := fun _ => rfl

theorem ofExcept (r : Except Failure α) : Leaves f (Engine.ofExcept r) := fun _ => rfl

theorem bind {x : Engine σ α} {k : α → Engine σ β} (hx : Leaves f x) (hk : ∀ a, Leaves f (k a)) :
    Leaves f (x >>= k) := by
  intro w
  have hfirst := hx w
  rw [run_bind]
  rcases hxw : x.run w with ⟨_ | a, w'⟩ <;> rw [hxw] at hfirst
  · exact hfirst
  · exact (hk a w').trans hfirst

theorem usableGraph? (hgraphs : ∀ (w : World σ) graphs, f { w with graphs := graphs } = f w)
    (d : Definition) : Leaves f (usableGraph? d) := by
  refine bind (fun _ => rfl) fun w => ?_
  split
  · exact pure _
  · split
    · exact pure _
    · refine bind (fun w => ?_) fun _ => pure _
      change f (if _ then w else _ : World σ) = f w
      split
      · rfl
      · exact hgraphs w _

theorem prepare (hcall : Leaves f (interrupt env .handleEvent))
    (hgraphs : ∀ (w : World σ) graphs, f { w with graphs := graphs } = f w)
    (hhost : ∀ (w : World σ) host, f { w with host := host } = f w)
    (hclock : ∀ (w : World σ) clock, f { w with clock := clock } = f w) :
    ∀ job : Job, Leaves f (prepare env job)
  | .event e => by
    refine bind hcall fun _ => ?_
    split <;> exact pure _
  | .manual d contact payload => by
    refine bind (usableGraph? hgraphs d) fun g => ?_
    split
    · exact throw _
    · exact bind (ofExcept _) fun _ => bind (fun w => hhost w _) fun _ =>
        bind (fun w => hclock w _) fun _ => pure _

end Leaves

end Leaving

/-- Whose turn it is stays as it is. -/
abbrev Turnless (x : Engine σ α) : Prop := Leaves (·.turns) x

namespace Turnless

theorem interrupt (call : StorageCall) : Turnless (interrupt env call) := by
  intro w
  rw [run_interrupt]
  split <;> rfl

theorem withTriggers : ∀ l : List Definition, Turnless (withTriggers (σ := σ) l)
  | [] => .pure _
  | d :: l => by
    refine .bind (.usableGraph? (fun _ _ => rfl) d) fun g => .bind (withTriggers l) fun others => ?_
    split <;> exact .pure _

theorem candidates (e : Event) : Turnless (candidates env e) :=
  .bind (.bind (interrupt _) fun _ _ => rfl) withTriggers

theorem createRun (d : Definition) (contact node : String) (event : Value) (chainDepth : Int) :
    Turnless (createRun env d contact node event chainDepth) :=
  .bind (interrupt _) fun _ => .bind (.ofExcept _) fun _ => .bind (fun _ => rfl) fun _ _ => rfl

variable (env) in
theorem prepare (job : Job) : Turnless (prepare env job) :=
  Leaves.prepare (interrupt _) (fun _ _ => rfl) (fun _ _ => rfl) (fun _ _ => rfl) job

variable (env) in
theorem proceed : ∀ work : Work, Turnless (proceed env work)
  | .seek e => .bind (candidates e) fun _ => .pure _
  | .create _ [] _ => .pure _
  | .create e ((d, trigger) :: rest) r => by
    simp only [Engine.proceed]
    split
    · refine .bind (createRun _ _ _ _ _) fun created => ?_
      split <;> exact .pure _
    · exact .pure _
  | .start d contact node event => .bind (createRun _ _ _ _ _) fun _ => .pure _

end Turnless

end Engine

/-! ## What every move keeps -/

namespace Lobby

variable {env : Environment σ} {l : Lobby σ}

/-- The calls are in order, and the turns of the world are theirs. -/
structure Orderly (l : Lobby σ) : Prop where
  hall : l.hall.Orderly
  turns : l.hall.Keeps l.world.turns

theorem pass_mem {n : Nat} {p : Pass (String × String)} (h : l.pass? n = some p) :
    p ∈ l.hall.passes :=
  List.mem_of_find?_eq_some h

namespace Orderly

variable (ho : l.Orderly)
include ho

/-- A world in which nobody has taken a turn or given one up. -/
theorem world {w : World σ} (hturns : w.turns = l.world.turns) :
    ({ l with world := w } : Lobby σ).Orderly :=
  ⟨ho.hall, hturns ▸ ho.turns⟩

theorem refuse (r : Except Failure Product) : (l.refuse r).Orderly :=
  ⟨ho.hall.skip, ho.turns.keys, ho.turns.callers⟩

theorem arrive (key : String × String) (work : Work) : (l.arrive key work).Orderly :=
  ⟨ho.hall.arrive key, ho.turns.arrive key⟩

theorem depart {p : Pass (String × String)} (hp : p ∈ l.hall.passes) (r : Except Failure Product) :
    (l.depart p r).Orderly :=
  ⟨ho.hall.leave hp, ho.turns.leave ho.hall hp⟩

theorem come (job : Job) : (l.come env job).Orderly := by
  have hw := ho.world (Engine.Turnless.prepare env job l.world)
  unfold Lobby.come
  rcases hrun : (Engine.prepare env job).run l.world with ⟨_ | _ | ⟨key, work⟩, after⟩ <;>
    rw [hrun] at hw
  · exact hw.refuse _
  · exact hw.refuse _
  · exact hw.arrive key work

theorem advance {p : Pass (String × String)} (hp : p ∈ l.hall.passes) (work : Work) :
    (l.advance env p work).Orderly := by
  have hw := ho.world (Engine.Turnless.proceed env work l.world)
  unfold Lobby.advance
  rcases hrun : (Engine.proceed env work).run l.world with ⟨_ | _ | next, after⟩ <;>
    rw [hrun] at hw
  · exact hw.depart hp _
  · exact hw.depart hp _
  · exact ⟨hw.hall, hw.turns⟩

theorem go (n : Nat) : (l.go env n).Orderly := by
  unfold Lobby.go
  split
  · exact ho
  rename_i p hp
  split
  · split
    · exact ho
    · exact ho.advance (pass_mem hp) _
  · exact ⟨ho.hall.enter (pass_mem hp), ho.turns.enter p⟩

theorem raise (n : Nat) (f : Failure) : (l.raise n f).Orderly := by
  unfold Lobby.raise
  split
  · exact ho
  · rename_i p hp
    exact ho.depart (pass_mem hp) _

theorem move (m : Move σ) : (l.move env m).Orderly := by
  cases m with
  | come job => exact ho.come job
  | go n => exact ho.go n
  | raise n f => exact ho.raise n f
  | elsewhere change => exact ho.world rfl

variable (env) in
theorem run (moves : List (Move σ)) : (l.run env moves).Orderly := by
  induction moves generalizing l with
  | nil => exact ho
  | cons m moves ih => exact ih (ho.move m)

end Orderly

/-! ## A call that is left alone -/

section Alone

variable {p : Pass (String × String)}

variable (env) in
/-- A call that is inside gets to the end of its section by itself. -/
def Finishes (work : Work) : Prop :=
  ∀ (l : Lobby σ) (p : Pass (String × String)), l.pass? p.number = some p → p.inside = true →
    l.works p.number = some work → ∃ k, l.run env (List.replicate k (.go p.number))
      = ({ l with world := ((Engine.complete env work).run l.world).2 } : Lobby σ).depart p
          ((Engine.complete env work).run l.world).1

/-- It is enough that the section gets to its end from where it waits again. -/
theorem Finishes.of_next {work : Work}
    (hnext : ∀ (w : World σ) next after,
      (Engine.proceed env work).run w = (.ok (.inr next), after) → Finishes env next) :
    Finishes env work := by
  intro l p hp inside hwork
  have hgo : l.move env (.go p.number) = l.advance env p work := by
    simp only [move, go, hp, inside, if_true, hwork]
  rw [Engine.complete_eq, Engine.run_bind]
  rcases hrun : (Engine.proceed env work).run l.world with ⟨f | product | next, after⟩
  · exact ⟨1, by rw [List.replicate_one, run_cons, run_nil, hgo, advance, hrun]⟩
  · exact ⟨1, by rw [List.replicate_one, run_cons, run_nil, hgo, advance, hrun]; rfl⟩
  · obtain ⟨k, hk⟩ := hnext _ _ _ hrun
      { l with world := after, works := Function.update l.works p.number (some next) } p hp inside
      (Function.update_self ..)
    refine ⟨k + 1, ?_⟩
    rw [List.replicate_succ, run_cons, hgo, advance, hrun]
    refine hk.trans ?_
    simp only [depart, Function.update_idem]

theorem finishes_create (e : Event) (rest : List (Definition × Node)) :
    ∀ r, Finishes env (.create e rest r) := by
  induction rest with
  | nil =>
    refine fun r => .of_next fun w next after hrun => ?_
    cases hrun
  | cons found rest ih =>
    refine fun r => .of_next fun w next after hrun => ?_
    simp only [Engine.proceed] at hrun
    split at hrun
    · rw [Engine.run_bind] at hrun
      split at hrun
      · split at hrun <;> cases hrun <;> exact ih _
      · cases hrun
    · cases hrun
      exact ih r

variable (env) in
theorem finishes (work : Work) : Finishes env work := by
  cases work with
  | seek e =>
    refine .of_next fun w next after hrun => ?_
    simp only [Engine.proceed, Engine.run_bind] at hrun
    split at hrun <;> cases hrun
    exact finishes_create e _ _
  | create e rest r => exact finishes_create e rest r
  | start d contact node event =>
    refine .of_next fun w next after hrun => ?_
    simp only [Engine.proceed, Engine.run_bind] at hrun
    split at hrun <;> cases hrun

/-- A call to which nobody comes in between does what the engine does when it performs the call, and
leaves no lock in the table. -/
theorem alone (job : Job) {w : World σ} (hturns : w.turns = []) :
    ∃ k, let l := (quiet w).run env (.come job :: List.replicate k (.go 0))
      l.world = ((Engine.perform env job).run w).2 ∧
      l.ended = [(0, ((Engine.perform env job).run w).1)] ∧
      l.hall.passes = [] ∧ l.hall.locks.table = [] := by
  have hquiet : quiet w = ⟨w, {}, fun _ => none, []⟩ := by rw [quiet, ← hturns]
  have hprepare := Engine.Turnless.prepare env job w
  simp only [run_cons, move, come, Engine.perform, Engine.run_bind, hquiet]
  rcases hrun : (Engine.prepare env job).run w with ⟨f | product | ⟨key, work⟩, after⟩ <;>
    rw [hrun] at hprepare
  · exact ⟨0, rfl, rfl, rfl, rfl⟩
  · exact ⟨0, rfl, rfl, rfl, rfl⟩
  · have hafter : after.turns = [] := hprepare.trans hturns
    have ho : (arrive key work (⟨after, {}, fun _ => none, []⟩ : Lobby σ)).Orderly := by
      refine Orderly.arrive ⟨Hall.orderly_empty, ?_, fun _ => ?_⟩ key work
      · rw [hafter]
        exact .nil
      · rw [hafter]
        rfl
    obtain ⟨k, hk⟩ := finishes env work (arrive key work ⟨after, {}, fun _ => none, []⟩)
      ⟨0, key, 0, true⟩ rfl rfl (by simp [arrive])
    have hworld : (arrive key work (⟨after, {}, fun _ => none, []⟩ : Lobby σ)).world
        = { after with turns := Turns.arrive key 0 [] } := by
      rw [arrive, ← hafter]
    have hend := ho.run env (List.replicate k (.go 0))
    refine ⟨k, ?_⟩
    dsimp only at hk ⊢
    rw [hk, hworld] at hend ⊢
    rw [Engine.run_inTurn]
    simp only [hafter]
    exact ⟨rfl, rfl, rfl, hend.hall.table_eq_nil rfl⟩

end Alone

/-! ## Calls side by side are in order -/

/-- An event of a contact. -/
def heard (contact : String) : Job := .event ⟨.contactCreated, "o-1", contact, [], 0, "e", ⟨7⟩⟩

-- The second call waits while the first is inside. When that is broken off, a third one comes
-- before the second goes on, and does not overtake it.
example :
    let l := (quiet Engine.circling).run Engine.undisturbed
      [.come (heard "c-1"), .come (heard "c-1"), .go 1, .raise 0 (.system .timeout ""),
        .come (heard "c-1"), .go 2, .go 1, .go 2]
    l.hall.entered = [(("o-1", "c-1"), 0), (("o-1", "c-1"), 1)] ∧
      l.hall.passes.map (·.number) = [1, 2] ∧ l.hall.locks.table = [(("o-1", "c-1"), 0)] := by
  decide +kernel

end Lobby

end CrmAutomation
