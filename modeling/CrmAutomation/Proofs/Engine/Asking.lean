import CrmAutomation.Proofs.Engine.Calls

/-!
# What actions ask of the services

The calls to services are logged in the order in which they are made, and `Engine.Asks` says what a
computation adds to the log. An attempt at an action asks for the contact and then makes at most one
call of its own, which carries the key of its run and node (`IsAttempt`); an action node makes no
more attempts than the retry strategy allows, whatever the answers are
(`Engine.asks_executeAction`).
-/

namespace CrmAutomation

variable {σ α β : Type}

/-- The calls that an action makes itself: at most one, and what it sends carries the key. -/
def IsEffect (key : String) (made : List ServiceCall) : Prop :=
  made = [] ∨ ∃ call, made = [call] ∧ (∀ k, call.key? = some k → k = key) ∧
    ∀ organization contact, call ≠ .getContact organization contact

/-- The calls of one attempt at an action: the contact is asked for, then the action makes one of
its own, or none. -/
def IsAttempt (run node : String) (made : List ServiceCall) : Prop :=
  ∃ organization contact rest, made = .getContact organization contact :: rest ∧
    IsEffect (run ++ ":" ++ node) rest

/-- The calls of at most `n` attempts. -/
def AreAttempts (run node : String) (n : Nat) (made : List ServiceCall) : Prop :=
  ∃ tries : List (List ServiceCall), made = tries.flatten ∧ tries.length ≤ n ∧
    ∀ t ∈ tries, IsAttempt run node t

theorem areAttempts_nil (run node : String) (n : Nat) : AreAttempts run node n [] :=
  ⟨[], rfl, Nat.zero_le n, by simp⟩

theorem AreAttempts.cons {run node : String} {n : Nat} {first rest : List ServiceCall}
    (h : IsAttempt run node first) (h' : AreAttempts run node n rest) :
    AreAttempts run node (n + 1) (first ++ rest) := by
  obtain ⟨tries, rfl, hlen, htries⟩ := h'
  refine ⟨first :: tries, rfl, Nat.succ_le_succ hlen, fun t ht => ?_⟩
  rcases List.mem_cons.1 ht with rfl | ht
  · exact h
  · exact htries t ht

theorem AreAttempts.mono {run node : String} {m n : Nat} {made : List ServiceCall}
    (h : AreAttempts run node m made) (hmn : m ≤ n) : AreAttempts run node n made := by
  obtain ⟨tries, hmade, hlen, htries⟩ := h
  exact ⟨tries, hmade, Nat.le_trans hlen hmn, htries⟩

/-! ## The log of a computation -/

namespace Engine

/-- The calls that `x` makes are as `L` says, wherever it starts and however it ends. -/
def Asks (L : List ServiceCall → Prop) (x : Engine σ α) : Prop :=
  ∀ w, ∃ made, (x.run w).2.calls = w.calls ++ made ∧ L made

/-- A computation that makes no calls to services. -/
def Silent (x : Engine σ α) : Prop := Asks (· = []) x

variable {L M N : List ServiceCall → Prop} {x : Engine σ α} {f : α → Engine σ β}
  {env : Environment σ}

theorem Asks.mono (hx : Asks L x) (h : ∀ made, L made → M made) : Asks M x := by
  intro w
  obtain ⟨made, hcalls, hmade⟩ := hx w
  exact ⟨made, hcalls, h made hmade⟩

theorem Asks.bind (hx : Asks L x) (hf : ∀ a, Asks M (f a)) (hL : ∀ l, L l → N l)
    (hLM : ∀ l m, L l → M m → N (l ++ m)) : Asks N (x >>= f) := by
  intro w
  obtain ⟨made, hcalls, hmade⟩ := hx w
  rw [run_bind]
  rcases hrun : x.run w with ⟨e | a, w'⟩ <;> rw [hrun] at hcalls
  · exact ⟨made, hcalls, hL made hmade⟩
  · obtain ⟨made', hcalls', hmade'⟩ := hf a w'
    exact ⟨made ++ made', by rw [hcalls', hcalls, List.append_assoc], hLM _ _ hmade hmade'⟩

/-- Nothing is asked before `f` is. -/
theorem Silent.bind (hx : Silent x) (hf : ∀ a, Asks M (f a)) (hM : M []) : Asks M (x >>= f) :=
  Asks.bind hx hf (fun _ hl => hl ▸ hM) fun _ _ hl hm => by simpa [hl] using hm

theorem silent_of_calls_eq (h : ∀ w, (x.run w).2.calls = w.calls) : Silent x :=
  fun w => ⟨[], by simp [h w], rfl⟩

theorem asks_pure (a : α) (h : L []) : Asks L (Pure.pure a : Engine σ α) :=
  (silent_of_calls_eq fun _ => rfl).mono fun _ hl => hl ▸ h

theorem silent_now : Silent (σ := σ) now := silent_of_calls_eq fun _ => rfl

theorem silent_freshId (kind : IdKind) : Silent (freshId env kind) :=
  silent_of_calls_eq fun _ => rfl

theorem silent_draw : Silent (monadLift (draw env) : Engine σ Double) :=
  silent_of_calls_eq fun _ => rfl

theorem silent_wait (delay : Double) : Silent (wait env delay) := silent_of_calls_eq fun _ => rfl

theorem silent_ofExcept (r : Except Failure α) : Silent (σ := σ) (ofExcept r) :=
  silent_of_calls_eq fun _ => rfl

theorem silent_interrupt (call : StorageCall) : Silent (interrupt env call) := by
  refine silent_of_calls_eq fun w => ?_
  rw [run_interrupt]
  split <;> rfl

theorem silent_look (call : StorageCall) (query : Database → α) : Silent (look env call query) :=
  (silent_interrupt call).bind (fun _ => silent_of_calls_eq fun _ => rfl) rfl

theorem silent_stored (call : StorageCall) (change : Instant → Database → α × Database) :
    Silent (stored env call change) :=
  (silent_interrupt call).bind (fun _ => silent_of_calls_eq fun _ => rfl) rfl

theorem silent_commit (change : Instant → Database → Except Failure (α × Database)) :
    Silent (σ := σ) (commit change) := by
  refine silent_of_calls_eq fun w => ?_
  rw [run_commit]
  split <;> rfl

theorem silent_record (run node nodeType : String) (attempt : Int) (outcome : NodeOutcome)
    (error : Option String) (output : Option Value) :
    Silent (record env run node nodeType attempt outcome error output) :=
  (silent_interrupt .record).bind (fun _ => silent_commit _) rfl

/-! ## What is done without asking -/

theorem silent_get : Silent (get : Engine σ (World σ)) := silent_of_calls_eq fun _ => rfl

theorem silent_turns (f : World σ → Turns (String × String)) :
    Silent (modify fun w => { w with turns := f w } : Engine σ Unit) :=
  silent_of_calls_eq fun _ => rfl

theorem silent_remember (id : String) (g : Graph) : Silent (remember (σ := σ) id g) := by
  refine silent_of_calls_eq fun w => ?_
  have hrun : ((remember id g).run w).2 = if (cached? id w.graphs).isSome then w
      else { w with graphs := w.graphs ++ [(id, g)] } := rfl
  rw [hrun]
  split <;> rfl

theorem silent_graphOf (id : String) : Silent (graphOf env id) := by
  refine silent_get.bind (fun w => ?_) rfl
  split
  · exact asks_pure _ rfl
  · refine (silent_look _ _).bind (fun found => ?_) rfl
    split
    · exact silent_of_calls_eq fun _ => rfl
    · exact (silent_ofExcept _).bind
        (fun g => (silent_remember _ g).bind (fun _ => asks_pure _ rfl) rfl) rfl

theorem silent_usableGraph (d : Definition) : Silent (usableGraph? (σ := σ) d) := by
  refine silent_get.bind (fun w => ?_) rfl
  split
  · exact asks_pure _ rfl
  · split
    · exact asks_pure _ rfl
    · exact (silent_remember _ _).bind (fun _ => asks_pure _ rfl) rfl

theorem silent_withTriggers : ∀ l : List Definition, Silent (withTriggers (σ := σ) l)
  | [] => asks_pure _ rfl
  | d :: l => by
    refine (silent_usableGraph d).bind
      (fun g => (silent_withTriggers l).bind (fun others => ?_) rfl) rfl
    split <;> exact asks_pure _ rfl

theorem silent_createRun (d : Definition) (contact node : String) (event : Value)
    (chainDepth : Int) : Silent (createRun env d contact node event chainDepth) :=
  (silent_interrupt .create).bind (fun _ => (silent_ofExcept _).bind
    (fun _ => (silent_freshId .run).bind (fun _ => silent_of_calls_eq fun _ => rfl) rfl) rfl) rfl

theorem silent_startRuns (e : Event) :
    ∀ (l : List (Definition × Node)) (r : MatchResult), Silent (startRuns env e l r)
  | [], _ => asks_pure _ rfl
  | (d, trigger) :: l, r => by
    have hrest : ∀ r, Silent (startRuns env e l r) := silent_startRuns e l
    unfold startRuns
    split
    · refine (silent_createRun d _ _ _ _).bind (fun created => ?_) rfl
      split <;> exact hrest _
    · exact hrest _

theorem silent_inTurn {x : Engine σ α} (organization contact : String) (hx : Silent x) :
    Silent (inTurn organization contact x) :=
  silent_get.bind (fun _ => (silent_turns _).bind (fun _ => Silent.bind (x := attempt x)
    (fun w => hx w) (fun r => (silent_turns _).bind (fun _ => silent_ofExcept r) rfl) rfl) rfl) rfl

theorem silent_raiseLock (call : StorageCall) (lock : Int)
    (change : Instant → Database → Bool × Database) :
    Silent (raiseLock env call lock change) := by
  refine (silent_interrupt call).bind (fun _ => ?_) rfl
  split
  · exact silent_commit _
  · exact silent_of_calls_eq fun _ => rfl

/-! ## Attempts at actions -/

theorem asks_ask (call : ServiceCall) : Asks (· = [call]) (ask env call) :=
  fun _ => ⟨[call], rfl, rfl⟩

theorem asks_attempt (hx : Asks L x) : Asks L (attempt x) := fun w => hx w

theorem asks_demand (call : ServiceCall) : Asks (· = [call]) (demand env call) := by
  refine (asks_ask call).bind (M := (· = [])) (fun answer => ?_) (fun _ hl => hl)
    fun _ _ hl hm => by simp [hl, hm]
  cases answer <;> exact silent_of_calls_eq fun _ => rfl

theorem silent_followUp (c : ActionContext) (type : EventType) (payload : Members) :
    Silent (followUp env c type payload) := by
  unfold followUp
  split
  · exact (silent_freshId _).bind (fun _ => silent_now.bind (fun _ => asks_pure _ rfl) rfl) rfl
  · exact asks_pure _ rfl

theorem silent_onValue {answer : Answer α} {f : α → Engine σ ActionResult}
    (hf : ∀ a, Silent (f a)) : Silent (onValue answer f) := by
  cases answer with
  | value a => exact (hf a).bind (fun _ => asks_pure _ rfl) rfl
  | failure e => exact asks_pure _ rfl
  | silence => exact asks_pure _ rfl

/-- An action that makes one call, if it makes one, and then only works with the answer. -/
theorem asks_effect {key : String} {call : ServiceCall} {f : Answer call.Result → Engine σ α}
    (hf : ∀ answer, Silent (f answer)) (hkey : ∀ k, call.key? = some k → k = key)
    (hcontact : ∀ organization contact, call ≠ .getContact organization contact) :
    Asks (IsEffect key) (ask env call >>= f) :=
  (asks_ask call).bind hf (fun _ hl => Or.inr ⟨call, hl, hkey, hcontact⟩) fun _ _ hl hm => by
    subst hl hm
    exact Or.inr ⟨call, rfl, hkey, hcontact⟩

theorem asks_executeInTime (c : ActionContext) (timeout : Double) :
    Asks (IsEffect c.idempotencyKey) (executeInTime env c timeout) := by
  have nothing : IsEffect c.idempotencyKey [] := Or.inl rfl
  unfold executeInTime
  split
  · exact asks_pure _ nothing
  · unfold execute
    split
    · unfold moveStage
      split
      · exact asks_pure _ nothing
      · exact asks_effect (fun _ => silent_onValue fun _ => (silent_followUp c _ _).bind
          (fun _ => asks_pure _ rfl) rfl) (by simp [ServiceCall.key?]) (by simp)
    · unfold addTag
      split
      · exact asks_pure _ nothing
      · exact asks_effect (fun _ => silent_onValue fun _ => (silent_followUp c _ _).bind
          (fun _ => asks_pure _ rfl) rfl) (by simp [ServiceCall.key?]) (by simp)
    · unfold removeTag
      split
      · exact asks_pure _ nothing
      · exact asks_effect (fun _ => silent_onValue fun _ => (silent_followUp c _ _).bind
          (fun _ => asks_pure _ rfl) rfl) (by simp [ServiceCall.key?]) (by simp)
    · unfold sendEmail
      split
      · exact asks_pure _ nothing
      · refine asks_effect (fun answer => ?_) (by simp [ServiceCall.key?, eq_comm]) (by simp)
        cases answer <;> exact asks_pure _ rfl
    · unfold callWebhook
      refine asks_effect (fun answer => ?_) (by simp [ServiceCall.key?, eq_comm]) (by simp)
      cases answer <;> exact asks_pure _ rfl
    · exact asks_pure _ nothing

theorem asks_dispatch (c : ActionContext) :
    Asks (IsEffect c.idempotencyKey) (dispatch env c) := by
  have nothing : IsEffect c.idempotencyKey [] := Or.inl rfl
  have rest : ∀ (timeout : Double) (f : Answer ActionResult → Engine σ ActionResult),
      (∀ answer, Silent (f answer)) →
      Asks (IsEffect c.idempotencyKey) (executeInTime env c timeout >>= f) := by
    intro timeout f hf
    exact (asks_executeInTime c timeout).bind hf (fun _ hl => hl)
      fun _ _ hl hm => by simpa [hm] using hl
  unfold dispatch
  split
  · exact asks_pure _ nothing
  · dsimp only
    split
    · refine (silent_look _ _).bind (fun found => ?_) nothing
      split
      · exact asks_pure _ nothing
      · exact rest _ _ fun answer => by cases answer <;> exact asks_pure _ rfl
    · exact rest _ _ fun answer => by cases answer <;> exact asks_pure _ rfl

theorem asks_attemptAction (run : Run) (node : Node) (number : Int) :
    Asks (IsAttempt run.id node.id) (attemptAction env run node number) := by
  have nothing : IsEffect (run.id ++ ":" ++ node.id) [] := Or.inl rfl
  unfold attemptAction
  refine Asks.bind (L := (· = [.getContact run.organization run.contact]))
    (M := IsEffect (run.id ++ ":" ++ node.id)) (asks_attempt (asks_demand _)) (fun answer => ?_)
    (fun _ hl => ⟨_, _, [], hl, nothing⟩)
    fun _ m hl hm => ⟨run.organization, run.contact, m, by simp [hl], hm⟩
  split
  · exact asks_pure _ nothing
  · exact asks_pure _ nothing
  · exact asks_dispatch _

end Engine

/-! ## The log of a walk -/

namespace Walk

/-- The calls that `x` makes are as `L` says, wherever it starts and however it ends. -/
def Asks (L : List ServiceCall → Prop) (x : Walk σ α) : Prop :=
  ∀ p w, ∃ made, (x.run (p, w)).2.2.calls = w.calls ++ made ∧ L made

/-- A computation on a run that makes no calls to services. -/
def Silent (x : Walk σ α) : Prop := Asks (· = []) x

variable {L M N : List ServiceCall → Prop} {x : Walk σ α} {f : α → Walk σ β}

theorem Asks.mono (hx : Asks L x) (h : ∀ made, L made → M made) : Asks M x := by
  intro p w
  obtain ⟨made, hcalls, hmade⟩ := hx p w
  exact ⟨made, hcalls, h made hmade⟩

theorem Asks.bind (hx : Asks L x) (hf : ∀ a, Asks M (f a)) (hL : ∀ l, L l → N l)
    (hLM : ∀ l m, L l → M m → N (l ++ m)) : Asks N (x >>= f) := by
  intro p w
  obtain ⟨made, hcalls, hmade⟩ := hx p w
  rw [run_bind]
  rcases hrun : x.run (p, w) with ⟨e | a, p', w'⟩ <;> rw [hrun] at hcalls
  · exact ⟨made, hcalls, hL made hmade⟩
  · obtain ⟨made', hcalls', hmade'⟩ := hf a p' w'
    exact ⟨made ++ made', by rw [hcalls', hcalls, List.append_assoc], hLM _ _ hmade hmade'⟩

/-- Nothing is asked before `f` is. -/
theorem Silent.bind (hx : Silent x) (hf : ∀ a, Asks M (f a)) (hM : M []) : Asks M (x >>= f) :=
  Asks.bind hx hf (fun _ hl => hl ▸ hM) fun _ _ hl hm => by simpa [hl] using hm

/-- A part of a walk that leaves the world alone. -/
theorem silent_of_world_eq (h : ∀ p w, (x.run (p, w)).2.2 = w) : Silent x :=
  fun p w => ⟨[], by simp [h p w], rfl⟩

theorem asks_engine {x : Engine σ α} (hx : Engine.Asks L x) : Asks L (engine x) :=
  fun _ w => hx w

end Walk

namespace Engine

variable {env : Environment σ}

theorem silent_failRun (run error : String) (o : Outcome) : Silent (failRun env run error o) := by
  refine (silent_stored _ _).bind (fun done => ?_) rfl
  split
  · exact asks_pure _ rfl
  · exact (silent_look _ _).bind (fun _ => asks_pure _ rfl) rfl

theorem silent_failWalk (run error : String) : Walk.Silent (failWalk env run error) :=
  (Walk.silent_of_world_eq fun _ _ => rfl).bind (fun p => Walk.Silent.bind
    (Walk.asks_engine (silent_failRun run error p.outcome))
    (fun _ => Walk.silent_of_world_eq fun _ _ => rfl) rfl) rfl

theorem silent_goOn (run : String) (next : Option String) : Walk.Silent (goOn env run next) := by
  unfold goOn
  cases next with
  | none =>
    refine Walk.Silent.bind (Walk.asks_engine (silent_stored _ _)) (fun done => ?_) rfl
    cases done <;> exact Walk.silent_of_world_eq fun _ _ => rfl
  | some node =>
    refine Walk.Silent.bind (Walk.asks_engine (silent_stored _ _)) (fun done => ?_) rfl
    cases done <;> exact Walk.silent_of_world_eq fun _ _ => rfl

/-- An attempt that is followed by at most `n` others. -/
theorem asks_tryOnce {n : Nat} {again : Walk σ Unit} (g : Graph) (run : Run) (node : Node)
    (number : Int) (hagain : Walk.Asks (AreAttempts run.id node.id n) again) :
    Walk.Asks (AreAttempts run.id node.id (n + 1)) (tryOnce env g run node number again) := by
  have nothing : AreAttempts run.id node.id n [] := areAttempts_nil _ _ _
  have none : ∀ made, made = [] → AreAttempts run.id node.id n made := fun _ h => h ▸ nothing
  unfold tryOnce
  refine (Walk.asks_engine (asks_attemptAction run node number)).bind
    (M := AreAttempts run.id node.id n) (fun r => ?_)
    (fun l hl => by simpa using AreAttempts.cons hl nothing) fun _ _ hl hm => .cons hl hm
  refine Walk.Silent.bind (Walk.asks_engine (silent_record _ _ _ _ _ _ _)) (fun _ => ?_) nothing
  split
  · refine Walk.Silent.bind (Walk.silent_of_world_eq fun _ _ => rfl) (fun _ => ?_) nothing
    exact Walk.Asks.mono (silent_goOn _ _) none
  · split
    · exact Walk.Asks.mono (silent_failWalk _ _) none
    · refine Walk.Silent.bind (Walk.asks_engine silent_draw) (fun _ => ?_) nothing
      refine Walk.Silent.bind (Walk.asks_engine (silent_ofExcept _)) (fun _ => ?_) nothing
      refine Walk.Silent.bind (Walk.asks_engine (silent_wait _)) (fun _ => ?_) nothing
      refine Walk.Silent.bind (Walk.asks_engine (silent_look _ _)) (fun _ => ?_) nothing
      split
      · exact hagain
      · refine Walk.Asks.mono (Walk.Silent.bind (Walk.silent_of_world_eq fun _ _ => rfl)
          (fun _ => Walk.silent_of_world_eq fun _ _ => rfl) rfl) none

theorem asks_tryAction (g : Graph) (run : Run) (node : Node) (left : Nat) (number : Int) :
    Walk.Asks (AreAttempts run.id node.id (left + 1)) (tryAction env g run node left number) := by
  induction left generalizing number with
  | zero =>
    refine asks_tryOnce g run node number (Walk.Asks.mono (L := (· = []))
      (Walk.silent_of_world_eq fun _ _ => rfl) ?_)
    rintro _ rfl
    exact areAttempts_nil _ _ _
  | succ left ih => exact asks_tryOnce g run node number (ih (number + 1))

/-- A node of which the attempts are counted from one on is attempted no more often than the
strategy allows, which is once at least. -/
theorem asks_executeAction (g : Graph) (run : Run) (node : Node) (p : Progress) (w : World σ)
    (counted : ∀ r ∈ w.db.records, 0 < r.attempt) :
    ∃ made, ((executeAction env g run node).run (p, w)).2.2.calls = w.calls ++ made ∧
      AreAttempts run.id node.id (max 1 env.rules.strategy.maxAttempts).toNat made := by
  have nothing := areAttempts_nil run.id node.id (max 1 env.rules.strategy.maxAttempts).toNat
  have attempts : ∀ (isUsedUp : Bool) (number : Int) (error : String), 0 < number →
      Walk.Asks (AreAttempts run.id node.id (max 1 env.rules.strategy.maxAttempts).toNat)
        (if isUsedUp then failWalk env run.id error
          else
            tryAction env g run node (env.rules.strategy.maxAttempts - number).toNat number) := by
    intro isUsedUp number error hnumber
    split
    · exact Walk.Asks.mono (silent_failWalk _ _) fun _ h => h ▸ nothing
    · exact (asks_tryAction g run node _ number).mono fun _ h => h.mono (by omega)
  -- The number of the first attempt is read from the trail, and what follows depends on it alone.
  have hlook : Leads (Step env (fun _ _ => True) .free) _ (nextAttempt env run.id node.id) _ _ :=
    leads_look .nextAttempt (fun db => db.nextAttempt run.id node.id)
      (.records fun records => ∀ r ∈ records, 0 < r.attempt)
  have hsilent : Silent (nextAttempt env run.id node.id) := silent_look _ _
  obtain ⟨-, hend⟩ := hlook w counted
  obtain ⟨_, hcalls, rfl⟩ := hsilent w
  unfold executeAction
  dsimp only
  rw [Walk.run_bind, Walk.run_engine]
  rcases hrun : (nextAttempt env run.id node.id).run w with ⟨e | number, w'⟩ <;>
    rw [hrun] at hend hcalls
  · exact ⟨[], hcalls, nothing⟩
  · obtain ⟨hcounted, hnumber⟩ := hend
    have hpos : 0 < number := hnumber ▸ Database.nextAttempt_pos hcounted run.id node.id
    rw [List.append_nil] at hcalls
    rw [← hcalls]
    dsimp only
    split
    · exact Walk.Silent.bind (Walk.asks_engine (silent_look _ _)) (fun _ => Walk.Silent.bind
        (Walk.silent_of_world_eq fun _ _ => rfl) (fun _ => attempts _ _ _ hpos) nothing)
        nothing p w'
    · exact Walk.Silent.bind (Walk.silent_of_world_eq fun _ _ => rfl)
        (fun _ => attempts _ _ _ hpos) nothing p w'

end Engine

end CrmAutomation
