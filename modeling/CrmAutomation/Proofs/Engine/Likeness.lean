import CrmAutomation.Proofs.Engine.Nodes
import CrmAutomation.Proofs.Engine.Requests
import CrmAutomation.Proofs.Store.Tenancy

/-!
# Computations that see one organization

Two worlds are alike for an organization (`World.Alike`) if they have the same rows of it, and if
what there is besides cannot be taken for its rows. `Engine.Same` says of a computation that it has
the same result in any two worlds that are alike, and leaves worlds that are alike: what it asked of
the services in the meantime is the same too, and asked for the organization, and what there was
besides is still there. `Walk.Same` is the same for a computation on one run.

A `Border` says what there is besides on either side. Where the two worlds are one and the same, the
host may do what it likes (`Border.whole`); else what it does may depend on the rows of the
organization only.
-/

namespace CrmAutomation

variable {σ α β : Type} {id : String}

/-! ## Hosts -/

/-- The organization that a service is called for. -/
def ServiceCall.organization? : ServiceCall → Option String
  | .getContact o _ | .setStage o _ _ | .addTag o _ _ | .removeTag o _ _ | .stageExists o _
  | .tagExists o _ | .templateExists o _ | .endpointExists o _ | .sendTemplate o _
  | .deliver o _ => some o
  | .close _ => none

/-- The host does the same on databases that are related, and the services answer the same for the
organization. -/
structure Host.Respects (host : Host σ) (o : String) (R : Database → Database → Prop) : Prop where
  freshId : ∀ kind d e s, R d e → host.freshId kind d s = host.freshId kind e s
  storage : ∀ call d e s, R d e → host.storage call d s = host.storage call e s
  service : ∀ call d e s, call.organization? = some o → R d e →
    host.service call d s = host.service call e s
  wait : ∀ delay d e s, R d e → host.wait delay d s = host.wait delay e s

/-- Nothing is known by an identifier of the kind. -/
def Database.LacksNamed (db : Database) : IdKind → String → Prop
  | .workflow, id => db.LacksWorkflow id
  | .definition _ _, id => db.LacksDefinition id
  | .run, id => db.LacksRun id ∧ db.LacksTrail id
  | .event, _ | .request, _ => True

/-- From the states of `S` on, and as long as there is `rest` besides the rows of the organization,
no identifier that the host makes up is one of `rest`, and the host cancels no run of it. -/
structure Host.KeepsOff (host : Host σ) (S : σ → Prop) (o : String) (rest : Database) : Prop where
  freshId : ∀ kind db s, S s → db.besides o = rest →
    rest.LacksNamed kind (host.freshId kind db s).1 ∧ S (host.freshId kind db s).2
  draw : ∀ s, S s → S (host.draw s).2
  storage : ∀ call db s, S s → db.besides o = rest →
    (∀ id ∈ (host.storage call db s).1.cancelled, rest.LacksRun id) ∧ S (host.storage call db s).2
  service : ∀ call db s, S s → db.besides o = rest →
    (∀ id ∈ (host.service call db s).1.cancelled, rest.LacksRun id) ∧ S (host.service call db s).2
  wait : ∀ delay db s, S s → db.besides o = rest →
    (∀ id ∈ (host.wait delay db s).1, rest.LacksRun id) ∧ S (host.wait delay db s).2

/-! ## Worlds that are alike -/

/-- Two sides on which an organization is looked at: what there is besides its rows, whether the
databases are the same as a whole, what the services had been asked, and the states of the host. -/
structure Border (σ : Type) where
  organization : String
  left : Database
  right : Database
  whole : Prop
  askedLeft : List ServiceCall
  askedRight : List ServiceCall
  states : σ → Prop

namespace Border

variable {b : Border σ}

/-- The rows of the others on both sides. -/
def others (b : Border σ) : Database where
  definitions := b.left.definitions ++ b.right.definitions
  runs := b.left.runs ++ b.right.runs
  records := b.left.records ++ b.right.records

theorem lacksRun (left : b.left.LacksRun id) (right : b.right.LacksRun id) :
    b.others.LacksRun id :=
  fun r hr => (List.mem_append.1 hr).elim (left r) (right r)

theorem lacksDefinition (left : b.left.LacksDefinition id) (right : b.right.LacksDefinition id) :
    b.others.LacksDefinition id :=
  fun d hd => (List.mem_append.1 hd).elim (left d) (right d)

theorem lacksWorkflow (left : b.left.LacksWorkflow id) (right : b.right.LacksWorkflow id) :
    b.others.LacksWorkflow id :=
  fun d hd => (List.mem_append.1 hd).elim (left d) (right d)

theorem lacksNamed {kind : IdKind} (left : b.left.LacksNamed kind id)
    (right : b.right.LacksNamed kind id) : b.others.LacksNamed kind id := by
  cases kind with
  | workflow => exact lacksWorkflow left right
  | definition => exact lacksDefinition left right
  | run => exact ⟨lacksRun left.1 right.1,
      fun r hr => (List.mem_append.1 hr).elim (left.2 r) (right.2 r)⟩
  | event | request => trivial

theorem keyed (left : b.left.Keyed) (right : b.right.Keyed) : b.others.Keyed := by
  intro r hr id contact named lacks
  rcases List.mem_append.1 hr with hr | hr
  · exact left r hr id contact named fun d hd => lacks d (List.mem_append_left _ hd)
  · exact right r hr id contact named fun d hd => lacks d (List.mem_append_right _ hd)

theorem left_within (b : Border σ) : b.left.Within b.others :=
  ⟨fun _ => List.mem_append_left _, fun _ => List.mem_append_left _,
    fun _ => List.mem_append_left _⟩

theorem right_within (b : Border σ) : b.right.Within b.others :=
  ⟨fun _ => List.mem_append_right _, fun _ => List.mem_append_right _,
    fun _ => List.mem_append_right _⟩

/-- A host that keeps to one side of a border, and makes up ids of definitions without a colon. -/
structure Suits (b : Border σ) (host : Host σ) : Prop where
  respects : host.Respects b.organization fun d e =>
    d.ownedBy b.organization = e.ownedBy b.organization ∧ (b.whole → d = e)
  left : host.KeepsOff b.states b.organization b.left
  right : host.KeepsOff b.states b.organization b.right
  named : ∀ id, host.NamesDefinition id → ':' ∉ id.toList

end Border

/-- Two databases with the same rows of the organization, in which it has some runs. -/
structure Database.Alike (b : Border σ) (K : String → Prop) (d e : Database) : Prop where
  left : Database.Apart b.others b.left b.organization d
  right : Database.Apart b.others b.right b.organization e
  owned_eq : d.ownedBy b.organization = e.ownedBy b.organization
  whole : b.whole → d = e
  known : ∀ id, K id → d.HasRun b.organization id

/-- Two worlds that the organization cannot tell apart. -/
structure World.Alike (b : Border σ) (K : String → Prop) (w v : World σ) : Prop where
  db : Database.Alike b K w.db v.db
  clock : w.clock = v.clock
  host : w.host = v.host
  state : b.states w.host
  graphs : ∀ id, b.others.LacksDefinition id →
    Engine.cached? id w.graphs = Engine.cached? id v.graphs
  asked : ∃ made, w.calls = b.askedLeft ++ made ∧ v.calls = b.askedRight ++ made ∧
    ∀ call ∈ made, call.organization? = some b.organization

namespace Database.Alike

variable {b : Border σ} {K : String → Prop} {d e : Database}

theorem known_right (h : Alike b K d e) {id : String} (hid : K id) :
    e.HasRun b.organization id := by
  obtain ⟨r, hr, heq⟩ := h.known id hid
  exact ⟨r, h.owned_eq ▸ hr, heq⟩

theorem lacks (h : Alike b K d e) {id : String} (hid : K id) : b.others.LacksRun id :=
  h.left.own_of_hasRun (h.known id hid)

/-- A query that finds in the rows of the organization what it finds in all has one result. -/
theorem query (h : Alike b K d e) {q : Database → α}
    (hd : q (d.ownedBy b.organization) = q d) (he : q (e.ownedBy b.organization) = q e) :
    q d = q e :=
  hd.symm.trans ((congrArg q h.owned_eq).trans he)

/-- Both databases have changed in the same way. -/
theorem follows (h : Alike b K d e) {d' e' own : Database}
    (hd : Follows b.others b.left b.organization d d' own)
    (he : Follows b.others b.right b.organization e e' own) (whole : b.whole → d' = e') :
    Alike b K d' e' :=
  ⟨hd.apart, he.apart, hd.ownedBy_eq.trans he.ownedBy_eq.symm, whole,
    fun id hid => hd.known id (h.known id hid)⟩

theorem changed (h : Alike b K d e) {f : Database → Except Failure (α × Database)}
    (hd : Tracks b.others b.left b.organization f d)
    (he : Tracks b.others b.right b.organization f e) :
    (∃ failure, f d = .error failure ∧ f e = .error failure) ∨
      ∃ a d' e', f d = .ok (a, d') ∧ f e = .ok (a, e') ∧ Alike b K d' e' := by
  cases hd with
  | refused failure whole part =>
    cases he with
    | refused failure' whole' part' =>
      rw [← h.owned_eq, part, Except.error.injEq] at part'
      exact .inl ⟨failure, whole, part' ▸ whole'⟩
    | made a' e' own' whole' part' =>
      rw [← h.owned_eq, part] at part'
      cases part'
  | made a d' own whole part hfollows =>
    cases he with
    | refused failure' whole' part' =>
      rw [← h.owned_eq, part] at part'
      cases part'
    | made a' e' own' whole' part' hfollows' =>
      rw [← h.owned_eq, part, Except.ok.injEq, Prod.mk.injEq] at part'
      obtain ⟨rfl, rfl⟩ := part'
      refine .inr ⟨a, d', e', whole, whole', h.follows hfollows hfollows' fun same => ?_⟩
      rw [h.whole same, whole', Except.ok.injEq, Prod.mk.injEq] at whole
      exact whole.2.symm

theorem cancelAll (h : Alike b K d e) (time : Instant) {ids : List String}
    (lacks : ∀ id ∈ ids, b.others.LacksRun id) :
    Alike b K (Engine.cancelAll time ids d) (Engine.cancelAll time ids e) :=
  h.follows (h.left.cancelAll time lacks) (h.owned_eq ▸ h.right.cancelAll time lacks)
    fun same => by rw [h.whole same]

end Database.Alike

namespace World.Alike

variable {b : Border σ} {K : String → Prop} {w v : World σ} {env : Environment σ}

theorem mono {K' : String → Prop} (h : Alike b K w v) (hK : ∀ id, K' id → K id) :
    Alike b K' w v :=
  { h with db := { h.db with known := fun id hid => h.db.known id (hK id hid) } }

theorem conceded (h : Alike b K w v) {ids : List String}
    (lacks : ∀ id ∈ ids, b.others.LacksRun id) : Alike b K (w.conceded ids) (v.conceded ids) :=
  { h with
    db := by
      simp only [World.conceded, h.clock]
      exact h.db.cancelAll _ lacks
    clock := congrArg (·.later 1) h.clock }

/-- The definitions are put back as they were. -/
theorem restored {w' v' : World σ} (h : Alike b K w v) (h' : Alike b K w' v') :
    Alike b K { w' with db := { w'.db with definitions := w.db.definitions } }
      { v' with db := { v'.db with definitions := v.db.definitions } } := by
  have hleft := h'.db.left.follows_definitions w.db.definitions
    (congrArg (·.definitions) (h.db.left.besides_eq.trans h'.db.left.besides_eq.symm))
    h.db.left.definitions
  have hright := h'.db.right.follows_definitions v.db.definitions
    (congrArg (·.definitions) (h.db.right.besides_eq.trans h'.db.right.besides_eq.symm))
    h.db.right.definitions
  have hown : { w'.db.ownedBy b.organization with
        definitions := w.db.definitions.filter fun d => d.organization == b.organization } =
      { v'.db.ownedBy b.organization with
        definitions := v.db.definitions.filter fun d => d.organization == b.organization } := by
    rw [h'.db.owned_eq]
    exact congrArg (fun db : Database => Database.mk db.definitions _ _) h.db.owned_eq
  have hwhole : b.whole → { w'.db with definitions := w.db.definitions } =
      { v'.db with definitions := v.db.definitions } := fun same => by
    rw [h.db.whole same, h'.db.whole same]
  exact { h' with db := h'.db.follows hleft (hown ▸ hright) hwhole }

theorem state_right (h : Alike b K w v) : b.states v.host :=
  h.host ▸ h.state

/-- The host has gone on to another state, and has cancelled runs that are none of the others'. -/
theorem gone (h : Alike b K w v) {ids : List String} {s : σ}
    (left : (∀ id ∈ ids, b.left.LacksRun id) ∧ b.states s)
    (right : (∀ id ∈ ids, b.right.LacksRun id) ∧ b.states s) :
    Alike b K ({ w with host := s }.conceded ids) ({ v with host := s }.conceded ids) := by
  have hgone : Alike b K { w with host := s } { v with host := s } :=
    { h with host := rfl, state := left.2 }
  exact hgone.conceded fun id hid => Border.lacksRun (left.1 id hid) (right.1 id hid)

/-- A service is called for the organization. -/
theorem called (h : Alike b K w v) {call : ServiceCall}
    (own : call.organization? = some b.organization) :
    Alike b K { w with calls := w.calls ++ [call] } { v with calls := v.calls ++ [call] } := by
  obtain ⟨made, hw, hv, hmade⟩ := h.asked
  refine { h with asked := ⟨made ++ [call], by simp [hw], by simp [hv], fun c hc => ?_⟩ }
  rcases List.mem_append.1 hc with hc | hc
  · exact hmade c hc
  · exact List.mem_singleton.1 hc ▸ own

variable (suits : b.Suits env.host)

include suits

theorem storage_eq (h : Alike b K w v) (call : StorageCall) :
    env.host.storage call w.db w.host = env.host.storage call v.db v.host :=
  h.host ▸ suits.respects.storage call _ _ _ ⟨h.db.owned_eq, h.db.whole⟩

theorem interrupted (h : Alike b K w v) (call : StorageCall) :
    Alike b K (w.interrupted env call) (v.interrupted env call) := by
  have left := suits.left.storage call w.db w.host h.state h.db.left.besides_eq
  have right := suits.right.storage call v.db v.host h.state_right h.db.right.besides_eq
  rw [← h.storage_eq suits call] at right
  rw [World.interrupted, World.interrupted, ← h.storage_eq suits call]
  exact h.gone left right

theorem service_eq (h : Alike b K w v) {call : ServiceCall}
    (own : call.organization? = some b.organization) :
    env.host.service call w.db w.host = env.host.service call v.db v.host :=
  h.host ▸ suits.respects.service call _ _ _ own ⟨h.db.owned_eq, h.db.whole⟩

theorem served (h : Alike b K w v) {call : ServiceCall}
    (own : call.organization? = some b.organization) :
    Alike b K (w.served env call) (v.served env call) := by
  have left := suits.left.service call w.db w.host h.state h.db.left.besides_eq
  have right := suits.right.service call v.db v.host h.state_right h.db.right.besides_eq
  rw [← h.service_eq suits own] at right
  rw [World.served, World.served, ← h.service_eq suits own]
  exact (h.called own).gone left right

theorem waited (h : Alike b K w v) (delay : Double) :
    Alike b K (w.waited env delay) (v.waited env delay) := by
  have heq : env.host.wait delay w.db w.host = env.host.wait delay v.db v.host :=
    h.host ▸ suits.respects.wait delay _ _ _ ⟨h.db.owned_eq, h.db.whole⟩
  have left := suits.left.wait delay w.db w.host h.state h.db.left.besides_eq
  have right := suits.right.wait delay v.db v.host h.state_right h.db.right.besides_eq
  have hwaits : Alike b K { w with waits := w.waits ++ [delay] }
      { v with waits := v.waits ++ [delay] } := { h with }
  rw [← heq] at right
  rw [World.waited, World.waited, ← heq]
  exact hwaits.gone left right

theorem freshId_eq (h : Alike b K w v) (kind : IdKind) :
    env.host.freshId kind w.db w.host = env.host.freshId kind v.db v.host :=
  h.host ▸ suits.respects.freshId kind _ _ _ ⟨h.db.owned_eq, h.db.whole⟩

theorem lacksNamed (h : Alike b K w v) (kind : IdKind) :
    b.others.LacksNamed kind (env.host.freshId kind w.db w.host).1 ∧
      b.states (env.host.freshId kind w.db w.host).2 := by
  have left := suits.left.freshId kind w.db w.host h.state h.db.left.besides_eq
  have right := suits.right.freshId kind v.db v.host h.state_right h.db.right.besides_eq
  rw [← h.freshId_eq suits kind] at right
  exact ⟨Border.lacksNamed left.1 right.1, left.2⟩

end World.Alike

/-! ## Computations over a world -/

namespace Engine

/-- Two ends of a computation: the same result, with `Q` of its value, and worlds that are alike. -/
structure SameEnd (b : Border σ) (K : String → Prop) (Q : α → Prop)
    (p q : Except Failure α × World σ) : Prop where
  result : p.1 = q.1
  good : ∀ a, p.1 = .ok a → Q a
  alike : World.Alike b K p.2 q.2

/-- In worlds that are alike a computation has the same result, with `Q` of its value, and leaves
worlds that are alike. -/
def Same (b : Border σ) (K : String → Prop) (x : Engine σ α) (Q : α → Prop) : Prop :=
  ∀ w v, World.Alike b K w v → SameEnd b K Q (x.run w) (x.run v)

variable {b : Border σ} {K : String → Prop} {env : Environment σ}

namespace Same

variable {Q : α → Prop} {S : β → Prop} {x : Engine σ α} {f : α → Engine σ β}

theorem pure {a : α} (h : Q a) : Same b K (Pure.pure a : Engine σ α) Q :=
  fun _ _ halike => ⟨rfl, by rintro _ ⟨⟩; exact h, halike⟩

theorem throw (e : Failure) : Same b K (throw e : Engine σ α) Q :=
  fun _ _ halike => ⟨rfl, by rintro _ ⟨⟩, halike⟩

theorem ofExcept {r : Except Failure α} (h : ∀ a, r = .ok a → Q a) :
    Same b K (Engine.ofExcept r : Engine σ α) Q :=
  fun _ _ halike => ⟨rfl, h, halike⟩

theorem bind (hx : Same b K x Q) (hf : ∀ a, Q a → Same b K (f a) S) : Same b K (x >>= f) S := by
  intro w v h
  obtain ⟨hresult, hgood, halike⟩ := hx w v h
  rw [run_bind, run_bind]
  rcases hw : x.run w with ⟨_ | a, w'⟩ <;> rcases hv : x.run v with ⟨_ | a', v'⟩ <;>
    rw [hw, hv] at hresult halike <;> rw [hw] at hgood <;> cases hresult
  · exact ⟨rfl, by rintro _ ⟨⟩, halike⟩
  · exact hf a (hgood a rfl) w' v' halike

theorem mono {Q' : α → Prop} (hx : Same b K x Q) (h : ∀ a, Q a → Q' a) : Same b K x Q' :=
  fun w v halike =>
    let ⟨hresult, hgood, hafter⟩ := hx w v halike
    ⟨hresult, fun a ha => h a (hgood a ha), hafter⟩

theorem attempt (hx : Same b K x Q) :
    Same b K (Engine.attempt x) fun r => ∀ a, r = .ok a → Q a := by
  intro w v h
  obtain ⟨hresult, hgood, halike⟩ := hx w v h
  exact ⟨congrArg Except.ok hresult, by rintro _ ⟨⟩; exact hgood, halike⟩

/-- A computation that looks at the world. -/
theorem get {f : World σ → Engine σ β}
    (hf : ∀ w v, World.Alike b K w v → SameEnd b K S ((f w).run w) ((f v).run v)) :
    Same b K (get >>= f) S :=
  hf

/-- A computation that looks at the database. -/
theorem query {q : Database → α} (hq : ∀ w v : World σ, World.Alike b K w v →
      q w.db = q v.db ∧ Q (q w.db)) (hf : ∀ a, Q a → Same b K (f a) S) :
    Same b K (MonadState.get >>= fun w : World σ => f (q w.db)) S := by
  refine .get fun w v h => ?_
  obtain ⟨heq, hgood⟩ := hq w v h
  rw [← heq]
  exact hf _ hgood w v h

theorem forget {K' : String → Prop} (hx : Same b K' x Q) {w v : World σ}
    (h : World.Alike b K' w v) (hK : ∀ id, K id → K' id) : SameEnd b K Q (x.run w) (x.run v) :=
  let ⟨hresult, hgood, hafter⟩ := hx w v h
  ⟨hresult, hgood, hafter.mono hK⟩

end Same

theorem same_ofExcept (r : Except Failure α) :
    Same (σ := σ) b K (ofExcept r) fun _ => True :=
  .ofExcept fun _ _ => trivial

theorem same_now : Same (σ := σ) b K now fun _ => True :=
  fun _ _ h => ⟨congrArg (fun t : Instant => Except.ok (t.later 1)) h.clock, fun _ _ => trivial,
    { h with clock := congrArg (·.later 1) h.clock }⟩

theorem same_turns (f : World σ → Turns (String × String)) :
    Same b K (modify fun w => { w with turns := f w } : Engine σ Unit) fun _ => True :=
  fun _ _ h => ⟨rfl, fun _ _ => trivial, { h with }⟩

theorem same_remember {id : String} (g : Graph) (lacks : b.others.LacksDefinition id) :
    Same b K (remember (σ := σ) id g) fun _ => True := by
  intro w v h
  have hrun : ∀ w : World σ, (remember id g).run w = (.ok (), if (cached? id w.graphs).isSome then w
      else { w with graphs := w.graphs ++ [(id, g)] }) := fun _ => rfl
  rw [hrun, hrun, h.graphs id lacks]
  split
  · exact ⟨rfl, fun _ _ => trivial, h⟩
  · refine ⟨rfl, fun _ _ => trivial, { h with graphs := fun i hi => ?_ }⟩
    have hi' := h.graphs i hi
    unfold cached? at hi' ⊢
    simp only [List.find?_append, Option.map_or, hi']

section Calls

variable (suits : b.Suits env.host)

include suits

theorem same_freshId (kind : IdKind) :
    Same b K (freshId env kind) fun id => b.others.LacksNamed kind id ∧
      ∃ db s, id = (env.host.freshId kind db s).1 := by
  intro w v h
  have hrun : ∀ w : World σ, (freshId env kind).run w =
      (.ok (env.host.freshId kind w.db w.host).1, w.named env kind) := fun _ => rfl
  have heq := h.freshId_eq suits kind
  obtain ⟨lacks, hstate⟩ := h.lacksNamed suits kind
  rw [hrun, hrun]
  refine ⟨congrArg (fun p => Except.ok p.1) heq, ?_,
    { h with host := congrArg Prod.snd heq, state := hstate }⟩
  rintro _ ⟨⟩
  exact ⟨lacks, _, _, rfl⟩

theorem same_draw : Same b K (monadLift (draw env) : Engine σ Double) fun _ => True := by
  intro w v h
  have hrun : ∀ w : World σ, (monadLift (draw env) : Engine σ Double).run w =
      (.ok (env.host.draw w.host).1, { w with host := (env.host.draw w.host).2 }) := fun _ => rfl
  rw [hrun, hrun, h.host]
  exact ⟨rfl, fun _ _ => trivial,
    { h with host := rfl, state := suits.left.draw v.host h.state_right }⟩

theorem same_wait (delay : Double) : Same b K (wait env delay) fun _ => True :=
  fun _ _ h => ⟨rfl, fun _ _ => trivial, h.waited suits delay⟩

theorem same_interrupt (call : StorageCall) : Same b K (interrupt env call) fun _ => True := by
  intro w v h
  rw [run_interrupt, run_interrupt, ← h.storage_eq suits call]
  split
  · exact ⟨rfl, by rintro _ ⟨⟩, h.interrupted suits call⟩
  · exact ⟨rfl, fun _ _ => trivial, h.interrupted suits call⟩

theorem same_look {q : Database → α} {Q : α → Prop} (call : StorageCall)
    (hq : ∀ d e, Database.Alike b K d e → q d = q e ∧ Q (q d)) :
    Same b K (look env call q) Q :=
  .bind (same_interrupt suits call) fun _ _ w v h =>
    let ⟨heq, hgood⟩ := hq _ _ h.db
    ⟨congrArg Except.ok heq, by rintro _ ⟨⟩; exact hgood, h⟩

omit suits in
theorem same_commit {change : Instant → Database → Except Failure (α × Database)} {Q : α → Prop}
    (hchange : ∀ time d e, Database.Alike b K d e →
      Database.Tracks b.others b.left b.organization (change time) d ∧
      Database.Tracks b.others b.right b.organization (change time) e ∧
      ∀ a d', change time d = .ok (a, d') → Q a) :
    Same b K (commit (σ := σ) change) Q := by
  intro w v h
  obtain ⟨hd, he, hgood⟩ := hchange (w.clock.later 1) _ _ h.db
  have hclock : w.clock.later 1 = v.clock.later 1 := congrArg (·.later 1) h.clock
  rw [run_commit, run_commit, ← hclock]
  obtain ⟨f, hw, hv⟩ | ⟨a, d', e', hw, hv, halike⟩ := h.db.changed hd he
  · rw [hw, hv]
    exact ⟨rfl, by rintro _ ⟨⟩, { h with clock := rfl }⟩
  · rw [hw, hv]
    exact ⟨rfl, by rintro _ ⟨⟩; exact hgood a d' hw, { h with db := halike, clock := rfl }⟩

/-- A change of the run `id` that is made where the run passes a guard. -/
theorem same_stored {id : String} (call : StorageCall)
    {change : Instant → Database → Bool × Database} {guard : Run → Bool}
    {write : Instant → Run → Run} (lacks : ∀ d e, Database.Alike b K d e → b.others.LacksRun id)
    (hchange : ∀ time, change time = Database.updateRun id guard (write time))
    (hwrite : ∀ time r, (write time r).id = r.id ∧ (write time r).organization = r.organization ∧
      (write time r).definition = r.definition) :
    Same b K (stored env call change) fun _ => True := by
  refine .bind (same_interrupt suits call) fun _ _ => ?_
  have hcommit : Same (σ := σ) b K (commit fun time db => .ok (change time db)) fun _ => True := by
    refine same_commit fun time d e h => ?_
    simp only [hchange]
    exact ⟨h.left.updateRun (lacks d e h) (hwrite time),
      h.right.updateRun (lacks d e h) (hwrite time), fun _ _ _ => trivial⟩
  exact hcommit

theorem same_record {run : String} (node nodeType : String) (attempt : Int) (outcome : NodeOutcome)
    (error : Option String) (output : Option Value) (known : K run) :
    Same b K (record env run node nodeType attempt outcome error output) fun _ => True := by
  refine .bind (same_interrupt suits .record) fun _ _ => same_commit fun time d e h => ?_
  exact ⟨h.left.record (h.known run known), h.right.record (h.known_right known),
    fun _ _ _ => trivial⟩

theorem same_ask {call : ServiceCall} (own : call.organization? = some b.organization) :
    Same b K (ask env call) fun _ => True := by
  intro w v h
  have hrun : ∀ w : World σ, (ask env call).run w =
      (.ok (env.host.service call w.db w.host).1.answer, w.served env call) := fun _ => rfl
  rw [hrun, hrun, ← h.service_eq suits own]
  exact ⟨rfl, fun _ _ => trivial, h.served suits own⟩

theorem same_demand {call : ServiceCall} (own : call.organization? = some b.organization) :
    Same b K (demand env call) fun _ => True := by
  refine .bind (same_ask suits own) fun answer _ => ?_
  cases answer with
  | value a => exact .pure trivial
  | failure f => exact .throw f
  | silence => exact .throw _

end Calls

end Engine

/-! ## Computations on one run -/

/-- The events are all of the organization. -/
def EventsOf (o : String) (es : List Event) : Prop := ∀ e ∈ es, e.organization = o

theorem eventsOf_nil (o : String) : EventsOf o [] := by
  simp [EventsOf]

theorem EventsOf.append {o : String} {es es' : List Event} (h : EventsOf o es)
    (h' : EventsOf o es') : EventsOf o (es ++ es') := by
  intro e he
  rcases List.mem_append.1 he with he | he
  · exact h e he
  · exact h' e he

/-- An outcome of a run that is none of the others', with events of the organization. -/
def Outcome.Own (b : Border σ) (o : Outcome) : Prop :=
  EventsOf b.organization o.emitted ∧ b.others.LacksRun o.run

namespace Walk

/-- Two ends of a walk: the same result and the same progress, with an outcome that is the
organization's. -/
structure SameEnd (b : Border σ) (K : String → Prop) (Q : α → Prop)
    (p q : Except Halt α × (Progress × World σ)) : Prop where
  result : p.1 = q.1
  progress : p.2.1 = q.2.1
  good : ∀ a, p.1 = .ok a → Q a
  own : p.2.1.outcome.Own b
  alike : World.Alike b K p.2.2 q.2.2

/-- From the same progress in worlds that are alike, a walk goes in the same way. -/
def Same (b : Border σ) (K : String → Prop) (x : Walk σ α) (Q : α → Prop) : Prop :=
  ∀ p w v, p.outcome.Own b → World.Alike b K w v →
    SameEnd b K Q (x.run (p, w)) (x.run (p, v))

namespace Same

variable {b : Border σ} {K : String → Prop} {Q : α → Prop} {S : β → Prop} {x : Walk σ α}
  {f : α → Walk σ β}

theorem pure {a : α} (h : Q a) : Same b K (Pure.pure a : Walk σ α) Q :=
  fun _ _ _ hp halike => ⟨rfl, rfl, by rintro _ ⟨⟩; exact h, hp, halike⟩

theorem halt : Same b K (Walk.halt : Walk σ α) Q :=
  fun _ _ _ hp halike => ⟨rfl, rfl, by rintro _ ⟨⟩, hp, halike⟩

theorem update {f : Progress → Progress} (hf : ∀ p, p.outcome.Own b →
      (f p).outcome.Own b) :
    Same (σ := σ) b K (Walk.update f) fun _ => True :=
  fun p _ _ hp halike => ⟨rfl, rfl, fun _ _ => trivial, hf p hp, halike⟩

theorem settle (state : Option RunState) : Same (σ := σ) b K (Walk.settle state) fun _ => True :=
  update fun _ hp => hp

theorem progress :
    Same (σ := σ) b K Walk.progress fun p => p.outcome.Own b :=
  fun _ _ _ hp halike => ⟨rfl, rfl, by rintro _ ⟨⟩; exact hp, hp, halike⟩

theorem engine {x : Engine σ α} (hx : Engine.Same b K x Q) : Same b K (Walk.engine x) Q := by
  intro p w v hp h
  obtain ⟨hresult, hgood, halike⟩ := hx w v h
  rw [run_engine, run_engine, ← hresult]
  refine ⟨rfl, rfl, fun a ha => hgood a ?_, hp, halike⟩
  split at ha
  · rename_i heq
    exact heq.trans (congrArg _ (Except.ok.inj ha))
  · cases ha

theorem bind (hx : Same b K x Q) (hf : ∀ a, Q a → Same b K (f a) S) : Same b K (x >>= f) S := by
  intro p w v hp h
  obtain ⟨hresult, hprogress, hgood, hown, halike⟩ := hx p w v hp h
  rw [run_bind, run_bind]
  rcases hw : x.run (p, w) with ⟨_ | a, p', w'⟩ <;>
    rcases hv : x.run (p, v) with ⟨_ | a', q', v'⟩ <;>
    rw [hw, hv] at hresult hprogress halike <;> rw [hw] at hgood hown <;> cases hresult <;>
    cases hprogress
  · exact ⟨rfl, rfl, by rintro _ ⟨⟩, hown, halike⟩
  · exact hf a (hgood a rfl) p' w' v' hown halike

end Same

end Walk

end CrmAutomation
