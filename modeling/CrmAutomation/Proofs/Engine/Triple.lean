import CrmAutomation.Engine.Executor
import Mathlib.Logic.Relation

/-!
# Triples for computations of the engine

`Engine.Leads S A x B X` says that `x`, started in a world where `A` holds, goes to its end by
steps of `S` and leaves a world where `B` holds of its value, or `X` if it fails. `Walk.Leads` is
the same for a computation on one run, whose assertions see how far the run has come as well. The
steps are part of the triple, so what every step keeps need not be named in any assertion: it is
added afterwards by `Engine.Leads.keep`.

There is one rule for each way in which computations are put together, and the rule of a sequence
is `bind`. What the calls of the engine do is the subject of other files.
-/

namespace CrmAutomation

variable {σ α β : Type}

/-- Any number of steps. -/
abbrev Path (S : World σ → World σ → Prop) : World σ → World σ → Prop := Relation.ReflTransGen S

/-- What every step keeps is kept by any number of them. -/
theorem Path.keep {S : World σ → World σ → Prop} {I : World σ → Prop} {w w' : World σ}
    (h : Path S w w') (hI : ∀ a b, S a b → I a → I b) (hw : I w) : I w' := by
  induction h with
  | refl => exact hw
  | tail _ hstep ih => exact hI _ _ hstep ih

/-- Steps that are paths of other steps make such a path together. -/
theorem Path.of_paths {S T : World σ → World σ → Prop} {w w' : World σ} (h : Path S w w')
    (hT : ∀ a b, S a b → Path T a b) : Path T w w' := by
  induction h with
  | refl => exact .refl
  | tail _ hstep ih => exact ih.trans (hT _ _ hstep)

/-! ## Computations over a world -/

namespace Engine

theorem run_bind (x : Engine σ α) (f : α → Engine σ β) (w : World σ) :
    (x >>= f).run w = match x.run w with
      | (.ok a, w') => (f a).run w'
      | (.error e, w') => (.error e, w') := by
  change ExceptT.bind x f w = _
  simp only [ExceptT.bind, ExceptT.mk, Bind.bind, StateT.bind, ExceptT.run]
  rcases x w with ⟨_ | _, _⟩ <;> rfl

theorem run_attempt (x : Engine σ α) (w : World σ) :
    (attempt x).run w = (.ok (x.run w).1, (x.run w).2) :=
  rfl

/-- Started where `A` holds, `x` goes by steps of `S` to where `B` holds of its value, or `X` if it
fails. -/
def Leads (S : World σ → World σ → Prop) (A : World σ → Prop) (x : Engine σ α)
    (B : α → World σ → Prop) (X : World σ → Prop) : Prop :=
  ∀ w, A w → Path S w (x.run w).2 ∧
    match (x.run w).1 with
    | .ok a => B a (x.run w).2
    | .error _ => X (x.run w).2

/-- Steps of any kind. -/
abbrev Any : World σ → World σ → Prop := fun _ _ => True

namespace Leads

variable {S : World σ → World σ → Prop} {A A' X X' : World σ → Prop} {B B' : α → World σ → Prop}
  {C : β → World σ → Prop} {x : Engine σ α} {f : α → Engine σ β}

theorem pure (a : α) (h : ∀ w, A w → B a w) : Leads S A (Pure.pure a) B X :=
  fun w hw => ⟨.refl, h w hw⟩

theorem throw (e : Failure) (h : ∀ w, A w → X w) :
    Leads S A (throw e : Engine σ α) B X :=
  fun w hw => ⟨.refl, h w hw⟩

theorem ofExcept (r : Except Failure α) (hok : ∀ a w, r = .ok a → A w → B a w)
    (herror : ∀ w, A w → X w) : Leads S A (Engine.ofExcept r) B X := by
  intro w hw
  cases r with
  | ok a => exact ⟨.refl, hok a w rfl hw⟩
  | error e => exact ⟨.refl, herror w hw⟩

theorem bind (hx : Leads S A x B X) (hf : ∀ a, Leads S (B a) (f a) C X) :
    Leads S A (x >>= f) C X := by
  intro w hw
  obtain ⟨hpath, hend⟩ := hx w hw
  rw [run_bind]
  rcases hxw : x.run w with ⟨_ | a, w'⟩
  · simp only [hxw] at hpath hend
    exact ⟨hpath, hend⟩
  · simp only [hxw] at hpath hend
    obtain ⟨hpath', hend'⟩ := hf a w' hend
    exact ⟨hpath.trans hpath', hend'⟩

theorem conseq (hx : Leads S A x B X) (hA : ∀ w, A' w → A w) (hB : ∀ a w, B a w → B' a w)
    (hX : ∀ w, X w → X' w) : Leads S A' x B' X' := by
  intro w hw
  obtain ⟨hpath, hend⟩ := hx w (hA w hw)
  refine ⟨hpath, ?_⟩
  split at hend
  · exact hB _ _ hend
  · exact hX _ hend

theorem pre (hx : Leads S A x B X) (hA : ∀ w, A' w → A w) : Leads S A' x B X :=
  hx.conseq hA (fun _ _ hw => hw) fun _ hw => hw

theorem post (hx : Leads S A x B X) (hB : ∀ a w, B a w → B' a w) : Leads S A x B' X :=
  hx.conseq (fun _ hw => hw) hB fun _ hw => hw

theorem fails (hx : Leads S A x B X) (hX : ∀ w, X w → X' w) : Leads S A x B X' :=
  hx.conseq (fun _ hw => hw) (fun _ _ hw => hw) hX

/-- What the assertion at the start says of things that do not change may be used throughout. -/
theorem assume {p : Prop} (hp : ∀ w, A w → p) (hx : p → Leads S A x B X) : Leads S A x B X :=
  fun w hw => hx (hp w hw) w hw

theorem attempt {C : Except Failure α → World σ → Prop} (hx : Leads S A x B X)
    (hok : ∀ a w, B a w → C (.ok a) w) (herror : ∀ e w, X w → C (.error e) w) :
    Leads S A (Engine.attempt x) C X' := by
  intro w hw
  obtain ⟨hpath, hend⟩ := hx w hw
  rw [run_attempt]
  refine ⟨hpath, ?_⟩
  change C (x.run w).1 (x.run w).2
  split at hend
  · rename_i heq
    exact heq ▸ hok _ _ hend
  · rename_i heq
    exact heq ▸ herror _ _ hend

theorem steps {T : World σ → World σ → Prop} (hx : Leads S A x B X) (hT : ∀ w w', S w w' → T w w') :
    Leads T A x B X :=
  fun w hw => ⟨Relation.ReflTransGen.mono hT _ _ (hx w hw).1, (hx w hw).2⟩

/-- Each step may be told as a path of other steps. -/
theorem paths {T : World σ → World σ → Prop} (hx : Leads S A x B X)
    (hT : ∀ w w', S w w' → Path T w w') : Leads T A x B X :=
  fun w hw => ⟨(hx w hw).1.of_paths hT, (hx w hw).2⟩

/-- What two triples say of a computation. -/
theorem and {S' : World σ → World σ → Prop} (hx : Leads S A x B X) (hx' : Leads S' A' x B' X') :
    Leads S (fun w => A w ∧ A' w) x (fun a w => B a w ∧ B' a w) fun w => X w ∧ X' w := by
  intro w hw
  obtain ⟨hpath, hend⟩ := hx w hw.1
  obtain ⟨-, hend'⟩ := hx' w hw.2
  refine ⟨hpath, ?_⟩
  rcases hrun : (x.run w).1 with e | a <;> rw [hrun] at hend hend' <;> exact ⟨hend, hend'⟩

/-- A computation that cannot fail has a value. -/
theorem exists_ok (hx : Leads S A x B fun _ => False) {w : World σ} (hw : A w) :
    ∃ a w', x.run w = (.ok a, w') ∧ Path S w w' ∧ B a w' := by
  obtain ⟨hpath, hend⟩ := hx w hw
  rcases hrun : x.run w with ⟨e | a, w'⟩ <;> rw [hrun] at hpath hend
  · exact hend.elim
  · exact ⟨a, w', rfl, hpath, hend⟩

/-- Every computation leads somewhere. -/
theorem any (x : Engine σ α) :
    Leads Any (fun _ => True) x (fun _ _ => True) fun _ => True := by
  intro w _
  refine ⟨.single trivial, ?_⟩
  split <;> trivial

/-- What every step keeps holds wherever a computation ends. -/
theorem keep {I : World σ → Prop} (hx : Leads S A x B X) (hI : ∀ w w', S w w' → I w → I w') :
    Leads S (fun w => I w ∧ A w) x (fun a w => I w ∧ B a w) (fun w => I w ∧ X w) := by
  rintro w ⟨hi, hw⟩
  obtain ⟨hpath, hend⟩ := hx w hw
  have hi' : I (x.run w).2 := Path.keep hpath hI hi
  refine ⟨hpath, ?_⟩
  split at hend
  · exact ⟨hi', hend⟩
  · exact ⟨hi', hend⟩

end Leads

/-- A computation that goes by steps of `S` and keeps `I`, whether it fails or not. -/
abbrev Stays (S : World σ → World σ → Prop) (I : World σ → Prop) (x : Engine σ α) : Prop :=
  Leads S I x (fun _ => I) I

namespace Stays

variable {S : World σ → World σ → Prop} {I : World σ → Prop} {x : Engine σ α} {f : α → Engine σ β}

theorem pure (a : α) : Stays S I (Pure.pure a : Engine σ α) := Leads.pure a fun _ hw => hw

theorem throw (e : Failure) : Stays S I (throw e : Engine σ α) := Leads.throw e fun _ hw => hw

theorem ofExcept (r : Except Failure α) : Stays S I (Engine.ofExcept r) :=
  Leads.ofExcept r (fun _ _ _ hw => hw) fun _ hw => hw

theorem bind (hx : Stays S I x) (hf : ∀ a, Stays S I (f a)) : Stays S I (x >>= f) :=
  Leads.bind hx hf

theorem attempt (hx : Stays S I x) : Stays S I (Engine.attempt x) :=
  Leads.attempt hx (fun _ _ hw => hw) fun _ _ hw => hw

end Stays

theorem stays_iff {S : World σ → World σ → Prop} {I : World σ → Prop} {x : Engine σ α} :
    Stays S I x ↔ ∀ w, I w → Path S w (x.run w).2 ∧ I (x.run w).2 := by
  constructor
  · intro hx w hw
    obtain ⟨hpath, hend⟩ := hx w hw
    split at hend <;> exact ⟨hpath, hend⟩
  · intro hx w hw
    obtain ⟨hpath, hend⟩ := hx w hw
    refine ⟨hpath, ?_⟩
    split <;> exact hend

end Engine

/-! ## Computations on one run -/

namespace Walk

theorem run_bind (x : Walk σ α) (f : α → Walk σ β) (s : Progress × World σ) :
    (x >>= f).run s = match x.run s with
      | (.ok a, s') => (f a).run s'
      | (.error e, s') => (.error e, s') := by
  change ExceptT.bind x f s = _
  simp only [ExceptT.bind, ExceptT.mk, Bind.bind, StateT.bind, ExceptT.run]
  rcases x s with ⟨_ | _, _⟩ <;> rfl

theorem run_engine (x : Engine σ α) (p : Progress) (w : World σ) :
    (engine x).run (p, w) = (match (x.run w).1 with
      | .ok a => .ok a
      | .error f => .error (.failed f), p, (x.run w).2) :=
  rfl

/-- Started where `A` holds of the progress and the world, `x` goes by steps of `S` to where `B`
holds of its value, or `X` of what halts it. -/
def Leads (S : World σ → World σ → Prop) (A : Progress → World σ → Prop) (x : Walk σ α)
    (B : α → Progress → World σ → Prop) (X : Halt → Progress → World σ → Prop) : Prop :=
  ∀ p w, A p w → Path S w (x.run (p, w)).2.2 ∧
    match (x.run (p, w)).1 with
    | .ok a => B a (x.run (p, w)).2.1 (x.run (p, w)).2.2
    | .error h => X h (x.run (p, w)).2.1 (x.run (p, w)).2.2

namespace Leads

variable {S : World σ → World σ → Prop} {A A' : Progress → World σ → Prop}
  {B B' : α → Progress → World σ → Prop} {C : β → Progress → World σ → Prop}
  {X X' : Halt → Progress → World σ → Prop} {x : Walk σ α} {f : α → Walk σ β}

theorem pure (a : α) (h : ∀ p w, A p w → B a p w) : Leads S A (Pure.pure a) B X :=
  fun p w hw => ⟨.refl, h p w hw⟩

theorem halt (h : ∀ p w, A p w → X .stopped p w) : Leads S A (Walk.halt : Walk σ α) B X :=
  fun p w hw => ⟨.refl, h p w hw⟩

theorem update {f : Progress → Progress} {B : Unit → Progress → World σ → Prop}
    (h : ∀ p w, A p w → B () (f p) w) : Leads S A (Walk.update f) B X :=
  fun p w hw => ⟨.refl, h p w hw⟩

theorem settle {state : Option RunState} {B : Unit → Progress → World σ → Prop}
    (h : ∀ p w, A p w → B () { p with outcome := { p.outcome with state := state } } w) :
    Leads S A (Walk.settle state) B X :=
  update h

theorem progress {B : Progress → Progress → World σ → Prop} (h : ∀ p w, A p w → B p p w) :
    Leads S A Walk.progress B X :=
  fun p w hw => ⟨.refl, h p w hw⟩

/-- A computation that sees the world only leaves the progress as it is. -/
theorem engine {x : Engine σ α} {E : Progress → World σ → Prop}
    (hx : ∀ p, Engine.Leads S (A p) x (fun a => B a p) (E p))
    (hE : ∀ f p w, E p w → X (.failed f) p w) : Leads S A (Walk.engine x) B X := by
  intro p w hw
  obtain ⟨hpath, hend⟩ := hx p w hw
  rw [run_engine]
  refine ⟨hpath, ?_⟩
  split at hend
  · rename_i heq
    simpa only [heq] using hend
  · rename_i heq
    simpa only [heq] using hE _ _ _ hend

theorem bind (hx : Leads S A x B X) (hf : ∀ a, Leads S (B a) (f a) C X) :
    Leads S A (x >>= f) C X := by
  intro p w hw
  obtain ⟨hpath, hend⟩ := hx p w hw
  rw [run_bind]
  rcases hxw : x.run (p, w) with ⟨_ | a, p', w'⟩
  · simp only [hxw] at hpath hend
    exact ⟨hpath, hend⟩
  · simp only [hxw] at hpath hend
    obtain ⟨hpath', hend'⟩ := hf a p' w' hend
    exact ⟨hpath.trans hpath', hend'⟩

theorem conseq (hx : Leads S A x B X) (hA : ∀ p w, A' p w → A p w)
    (hB : ∀ a p w, B a p w → B' a p w) (hX : ∀ h p w, X h p w → X' h p w) :
    Leads S A' x B' X' := by
  intro p w hw
  obtain ⟨hpath, hend⟩ := hx p w (hA p w hw)
  refine ⟨hpath, ?_⟩
  split at hend
  · exact hB _ _ _ hend
  · exact hX _ _ _ hend

theorem pre (hx : Leads S A x B X) (hA : ∀ p w, A' p w → A p w) : Leads S A' x B X :=
  hx.conseq hA (fun _ _ _ hw => hw) fun _ _ _ hw => hw

/-- What the assertion at the start says of things that do not change may be used throughout. -/
theorem assume {q : Prop} (hq : ∀ p w, A p w → q) (hx : q → Leads S A x B X) :
    Leads S A x B X :=
  fun p w hw => hx (hq p w hw) p w hw

end Leads

end Walk

end CrmAutomation
