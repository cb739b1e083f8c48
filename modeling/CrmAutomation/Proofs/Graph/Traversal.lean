import CrmAutomation.Proofs.Graph.Reachability
import Mathlib.Algebra.BigOperators.Group.List.Basic
import Mathlib.Algebra.BigOperators.Intervals

/-!
# The depth-first search step by step

`Graph.closingEdges` is found by a search that calls itself. `Traversal` is the same search as a
machine without recursion: it keeps the positions that are open on a stack, each with the successors
that are still to be looked at, and marks every position as new, open or done. A step looks at one
successor, or leaves a position that has none left, or takes up the next root.

With every step `Traversal.pending` falls by one (`Sound.pending_of_step`), so that the machine halts
after two steps for each node and one for each edge; and what it has found then are the closing edges
(`WellFormed.traversal_halts`). The positions marked open are those on the stack, and those marked
done are those that the search has finished (`marks`).
-/

namespace CrmAutomation

namespace Graph

open Relation (ReflTransGen)

/-- How far a search has come with a position. -/
inductive Mark where
  | new
  | open
  | done
  deriving DecidableEq

/-- A depth-first search under way: the roots that are left, the open positions with the successors
that are left of each, innermost first, and the edges found to close a circle. -/
structure Traversal where
  roots : List Nat
  stack : List (Nat × List Nat)
  mark : Nat → Mark
  closing : List (Nat × Nat)

namespace Traversal

/-- The search before its first step. -/
def start (g : Graph) : Traversal := ⟨List.range g.size, [], fun _ => .new, []⟩

/-- Opens a position on top of a stack. -/
def enter (g : Graph) (i : Nat) (t : Traversal) : Traversal :=
  { t with stack := (i, g.successors i) :: t.stack, mark := Function.update t.mark i .open }

/-- One step, unless the search has ended. -/
def step (g : Graph) (t : Traversal) : Option Traversal :=
  match t.stack with
  | (current, child :: rest) :: below =>
    let t := { t with stack := (current, rest) :: below }
    match t.mark child with
    | .new => some (t.enter g child)
    | .open => some { t with closing := t.closing ++ [(current, child)] }
    | .done => some t
  | (current, []) :: below =>
    some { t with stack := below, mark := Function.update t.mark current .done }
  | [] =>
    match t.roots with
    | root :: roots =>
      let t := { t with roots := roots }
      if t.mark root = .new then some (t.enter g root) else some t
    | [] => none

/-- The search after some steps, fewer if it ends before. -/
def after (g : Graph) : Nat → Traversal → Traversal
  | 0, t => t
  | n + 1, t =>
    match t.step g with
    | some next => after g n next
    | none => t

variable {g : Graph} {t next last : Traversal}

/-! ## What is left to do -/

/-- The steps that a position takes once it is entered: one for each successor, and one to leave. -/
def steps (g : Graph) (i : Nat) : Nat := (g.successors i).length + 1

/-- The steps that are left: those of the roots, of the open positions and of the new ones. -/
def pending (g : Graph) (t : Traversal) : Nat :=
  t.roots.length + (t.stack.map fun frame => frame.2.length + 1).sum +
    ∑ i ∈ (Finset.range g.size).filter (t.mark · = .new), steps g i

/-- Nothing past the nodes is still to be looked at, and what is on the stack is not new. -/
structure Sound (g : Graph) (t : Traversal) : Prop where
  roots : ∀ i ∈ t.roots, i < g.size
  stack : ∀ frame ∈ t.stack, ∀ i ∈ frame.2, i < g.size
  entered : ∀ frame ∈ t.stack, t.mark frame.1 ≠ .new

theorem sound_start : (start g).Sound g :=
  ⟨fun _ hi => List.mem_range.1 hi, by simp [start], by simp [start]⟩

theorem Sound.enter (wf : g.WellFormed) (h : t.Sound g) (i : Nat) : (t.enter g i).Sound g := by
  refine ⟨h.roots, List.forall_mem_cons.2
    ⟨fun _ hj => (wf.lt_of_joins (mem_successors.1 hj)).2, h.stack⟩, fun frame hframe => ?_⟩
  by_cases hi : frame.1 = i
  · simp [Traversal.enter, hi]
  · rcases List.mem_cons.1 hframe with rfl | hframe
    · exact absurd rfl hi
    · simpa [Traversal.enter, Function.update, hi] using h.entered frame hframe

/-- Entering a new position turns its steps from those of a new position into those of an open one. -/
theorem pending_enter {i : Nat} (hi : i < g.size) (hnew : t.mark i = .new) :
    (t.enter g i).pending g = t.pending g := by
  have hmem : i ∈ (Finset.range g.size).filter (t.mark · = .new) :=
    Finset.mem_filter.2 ⟨Finset.mem_range.2 hi, hnew⟩
  have hothers : (Finset.range g.size).filter ((t.enter g i).mark · = .new)
      = ((Finset.range g.size).filter (t.mark · = .new)).erase i := by
    ext j
    by_cases hj : j = i <;> simp [Traversal.enter, Function.update, hj]
  rw [pending, pending, hothers, ← Finset.add_sum_erase _ (steps g) hmem]
  simp only [Traversal.enter, List.map_cons, List.sum_cons, steps]
  omega

/-- Marking a position as done changes nothing for the new ones, unless it is new. -/
theorem filter_new_of_done {mark : Nat → Mark} {i : Nat} (hentered : mark i ≠ .new) :
    (Finset.range g.size).filter (Function.update mark i .done · = .new)
      = (Finset.range g.size).filter (mark · = .new) := by
  ext j
  by_cases hj : j = i
  · subst hj
    simp [hentered]
  · simp [Function.update, hj]

/-- With every step there is one less to take. -/
theorem Sound.pending_of_step (wf : g.WellFormed) (h : t.Sound g) (hstep : t.step g = some next) :
    next.Sound g ∧ t.pending g = next.pending g + 1 := by
  obtain ⟨roots, stack, mark, closing⟩ := t
  obtain ⟨hroots, hstack, hentered⟩ := h
  dsimp only at hroots hstack hentered
  match stack with
  | (current, child :: rest) :: below =>
    obtain ⟨hchildren, hbelow⟩ := List.forall_mem_cons.1 hstack
    obtain ⟨hchild, hrest⟩ := List.forall_mem_cons.1 hchildren
    obtain ⟨hcurrent, hentered⟩ := List.forall_mem_cons.1 hentered
    have hsound (found : List (Nat × Nat)) :
        Sound g ⟨roots, (current, rest) :: below, mark, found⟩ :=
      ⟨hroots, List.forall_mem_cons.2 ⟨hrest, hbelow⟩, List.forall_mem_cons.2 ⟨hcurrent, hentered⟩⟩
    have hless (found : List (Nat × Nat)) :
        pending g ⟨roots, (current, child :: rest) :: below, mark, closing⟩
          = pending g ⟨roots, (current, rest) :: below, mark, found⟩ + 1 := by
      simp only [pending, List.map_cons, List.sum_cons, List.length_cons]
      omega
    simp only [step] at hstep
    split at hstep
    · rename_i hnew
      cases hstep
      exact ⟨(hsound closing).enter wf child, by rw [hless closing, pending_enter hchild hnew]⟩
    · cases hstep
      exact ⟨hsound _, hless _⟩
    · cases hstep
      exact ⟨hsound closing, hless closing⟩
  | (current, []) :: below =>
    cases hstep
    obtain ⟨hcurrent, hentered⟩ := List.forall_mem_cons.1 hentered
    refine ⟨⟨hroots, (List.forall_mem_cons.1 hstack).2, fun frame hframe => ?_⟩, ?_⟩
    · by_cases hi : frame.1 = current
      · simp [hi]
      · simpa [Function.update, hi] using hentered frame hframe
    · simp only [pending, filter_new_of_done hcurrent, List.map_cons, List.sum_cons, List.length_nil]
      omega
  | [] =>
    match roots with
    | root :: roots =>
      obtain ⟨hroot, hroots⟩ := List.forall_mem_cons.1 hroots
      have hsound : Sound g ⟨roots, [], mark, closing⟩ := ⟨hroots, hstack, hentered⟩
      have hless : pending g ⟨root :: roots, [], mark, closing⟩
          = pending g ⟨roots, [], mark, closing⟩ + 1 := by
        simp only [pending, List.length_cons]
        omega
      simp only [step] at hstep
      split at hstep
      · rename_i hnew
        cases hstep
        exact ⟨hsound.enter wf root, by rw [hless, pending_enter hroot hnew]⟩
      · cases hstep
        exact ⟨hsound, hless⟩
    | [] => cases hstep

/-- After as many steps as are left the search has ended. -/
theorem Sound.step_after (wf : g.WellFormed) {n : Nat} (h : t.Sound g) (hn : t.pending g ≤ n) :
    (t.after g n).step g = none := by
  induction n generalizing t with
  | zero =>
    cases hstep : t.step g with
    | none => exact hstep
    | some next =>
      have hless := (h.pending_of_step wf hstep).2
      omega
  | succ n ih =>
    cases hstep : t.step g with
    | none => simp [after, hstep]
    | some next =>
      obtain ⟨hsound, hless⟩ := h.pending_of_step wf hstep
      simpa [after, hstep] using ih hsound (by omega)

/-- The search takes two steps for each node and one for each edge. -/
theorem pending_start (wf : g.WellFormed) : (start g).pending g = 2 * g.size + g.edges.length := by
  have hlength := wf.perm_flatMap_outgoingAt.length_eq
  rw [List.length_flatMap] at hlength
  have hedges : ∑ i ∈ Finset.range g.size, (g.successors i).length = g.edges.length := by
    simp only [successors, List.length_map]
    exact hlength
  simp only [pending, start, List.length_range, List.map_nil, List.sum_nil, steps, Finset.filter_true,
    Finset.sum_add_distrib, hedges, ← Finset.card_eq_sum_ones, Finset.card_range]
  omega

/-! ## What the search finds -/

/-- One step after the other. -/
def Reaches (g : Graph) : Traversal → Traversal → Prop :=
  ReflTransGen fun t next => t.step g = some next

/-- The marks of a search on a path: what is on the path is open. -/
def marks (path finished : List Nat) (i : Nat) : Mark :=
  if i ∈ path then .open else if i ∈ finished then .done else .new

/-- The search with a stack, what it has finished so far and what it has found. -/
def midway (roots : List Nat) (stack : List (Nat × List Nat)) (finished : List Nat)
    (closing : List (Nat × Nat)) : Traversal :=
  ⟨roots, stack, marks (stack.map (·.1)) finished, closing⟩

variable {path finished children rest roots : List Nat} {current child root fuel : Nat}
  {closing : List (Nat × Nat)} {below stack : List (Nat × List Nat)}
  {visit : List Nat → Nat → List Nat → Search}

theorem enter_midway :
    (midway roots stack finished closing).enter g child
      = midway roots ((child, g.successors child) :: stack) finished closing := by
  have hmark : Function.update (marks (stack.map (·.1)) finished) child .open
      = marks (child :: stack.map (·.1)) finished := by
    funext j
    by_cases hj : j = child
    · simp [marks, hj]
    · simp only [Function.update_of_ne hj, marks, List.mem_cons, hj, false_or]
  simp only [midway, Traversal.enter, hmark, List.map_cons]

/-- A position that is left is finished. -/
theorem step_leave (hcurrent : current ∉ below.map (·.1)) :
    (midway roots ((current, []) :: below) finished closing).step g
      = some (midway roots below (current :: finished) closing) := by
  have hmark : Function.update (marks (current :: below.map (·.1)) finished) current .done
      = marks (below.map (·.1)) (current :: finished) := by
    funext j
    by_cases hj : j = current
    · simp [marks, hj, hcurrent]
    · simp only [Function.update_of_ne hj, marks, List.mem_cons, hj, false_or]
  simp only [midway, step, List.map_cons, hmark]

/-- An edge back into the stack closes a circle. -/
theorem step_open (hpath : child ∈ current :: below.map (·.1)) :
    (midway roots ((current, child :: rest) :: below) finished closing).step g
      = some (midway roots ((current, rest) :: below) finished (closing ++ [(current, child)])) := by
  simp only [midway, step, marks, List.map_cons, if_pos hpath]

/-- A child that is finished is passed over. -/
theorem step_done (hpath : child ∉ current :: below.map (·.1)) (hmet : child ∈ finished) :
    (midway roots ((current, child :: rest) :: below) finished closing).step g
      = some (midway roots ((current, rest) :: below) finished closing) := by
  simp only [midway, step, marks, List.map_cons, if_neg hpath, if_pos hmet]

/-- A new child is entered. -/
theorem step_new (hpath : child ∉ current :: below.map (·.1)) (hmet : child ∉ finished) :
    (midway roots ((current, child :: rest) :: below) finished closing).step g
      = some (midway roots ((child, g.successors child) :: (current, rest) :: below) finished
        closing) := by
  rw [← enter_midway]
  simp only [midway, step, marks, List.map_cons, if_neg hpath, if_neg hmet]

variable (visit) in
/-- Looking at children step by step comes to what `searchChildren` finds. -/
theorem reaches_searchChildren (hpath : path = current :: below.map (·.1))
    (hvisit : ∀ child ∈ children, ∀ rest finished closing, child ∉ path → child ∉ finished →
      Reaches g
        (midway roots ((child, g.successors child) :: (current, rest) :: below) finished closing)
        (midway roots ((current, rest) :: below) (visit path child finished).finished
          (closing ++ (visit path child finished).closing))) :
    Reaches g (midway roots ((current, children) :: below) finished closing)
      (midway roots ((current, []) :: below)
        (searchChildren visit path current children finished).finished
        (closing ++ (searchChildren visit path current children finished).closing)) := by
  induction children generalizing finished closing with
  | nil =>
    rw [searchChildren, List.append_nil]
    exact ReflTransGen.refl
  | cons child rest ih =>
    have hlater := fun finished closing =>
      @ih finished closing fun c hc => hvisit c (List.mem_cons_of_mem _ hc)
    rw [searchChildren]
    split
    · rename_i hback
      have hrest := hlater finished (closing ++ [(current, child)])
      rw [List.append_assoc] at hrest
      exact .head (step_open (hpath ▸ hback)) hrest
    · rename_i hfree
      split
      · rename_i hmet
        exact .head (step_done (hpath ▸ hfree) hmet) (hlater finished closing)
      · rename_i hmet
        have hfirst := hvisit child List.mem_cons_self rest finished closing hfree hmet
        have hrest := hlater (visit path child finished).finished
          (closing ++ (visit path child finished).closing)
        rw [List.append_assoc] at hrest
        exact .head (step_new (hpath ▸ hfree) hmet) (hfirst.trans hrest)

/-- A position that was entered is left when all is found that `searchFrom` finds, given fuel for
every position that is not open. -/
theorem reaches_searchFrom (wf : g.WellFormed) (hpath : path = below.map (·.1))
    (distinct : (current :: path).Nodup) (bounded : ∀ i ∈ current :: path, i < g.size)
    (henough : g.size ≤ path.length + fuel) :
    Reaches g (midway roots ((current, g.successors current) :: below) finished closing)
      (midway roots below (searchFrom g fuel path current finished).finished
        (closing ++ (searchFrom g fuel path current finished).closing)) := by
  induction fuel generalizing path current below finished closing with
  | zero =>
    have hlength := length_le_size distinct bounded
    rw [List.length_cons] at hlength
    omega
  | succ fuel ih =>
    have hleave := (List.nodup_cons.1 distinct).1
    refine .tail (reaches_searchChildren (searchFrom g fuel) (by rw [hpath])
      fun child hc rest finished closing hnew _ => ?_) (step_leave (hpath ▸ hleave))
    exact ih (by rw [List.map_cons, hpath])
      (List.nodup_cons.2 ⟨hpath ▸ hnew, hpath ▸ distinct⟩)
      (List.forall_mem_cons.2 ⟨(wf.lt_of_joins (mem_successors.1 hc)).2, hpath ▸ bounded⟩)
      (by rw [List.length_cons]; omega)

theorem step_root_met (hmet : root ∈ finished) :
    (midway (root :: roots) [] finished closing).step g
      = some (midway roots [] finished closing) := by
  simp [midway, step, marks, hmet]

theorem step_root_new (hmet : root ∉ finished) :
    (midway (root :: roots) [] finished closing).step g
      = some (midway roots [(root, g.successors root)] finished closing) := by
  rw [← enter_midway]
  simp [midway, step, marks, hmet]

/-- Taking up the roots step by step comes to what `searchRoots` finds. -/
theorem reaches_searchRoots (wf : g.WellFormed) (bounded : ∀ i ∈ roots, i < g.size) :
    Reaches g (midway roots [] finished closing)
      (midway [] [] (searchRoots g roots finished).finished
        (closing ++ (searchRoots g roots finished).closing)) := by
  induction roots generalizing finished closing with
  | nil =>
    rw [searchRoots, List.append_nil]
    exact ReflTransGen.refl
  | cons root roots ih =>
    obtain ⟨hroot, hbounded⟩ := List.forall_mem_cons.1 bounded
    rw [searchRoots]
    split
    · rename_i hmet
      exact .head (step_root_met hmet) (ih hbounded)
    · rename_i hmet
      have hfirst : Reaches g (midway roots [(root, g.successors root)] finished closing)
          (midway roots [] (searchFrom g g.size [] root finished).finished
            (closing ++ (searchFrom g g.size [] root finished).closing)) :=
        reaches_searchFrom wf rfl (by simp) (by simpa using hroot) (by simp)
      have hrest := @ih (searchFrom g g.size [] root finished).finished
        (closing ++ (searchFrom g g.size [] root finished).closing) hbounded
      rw [List.append_assoc] at hrest
      exact .head (step_root_new hmet) (hfirst.trans hrest)

/-! ## The end of the search -/

theorem reaches_after (n : Nat) : Reaches g t (t.after g n) := by
  induction n generalizing t with
  | zero => exact ReflTransGen.refl
  | succ n ih =>
    rw [after]
    split
    · rename_i next hstep
      exact .head hstep ih
    · exact ReflTransGen.refl

theorem eq_of_reaches (h : Reaches g t last) (hend : t.step g = none) : t = last := by
  cases h using ReflTransGen.head_induction_on with
  | refl => rfl
  | head hstep _ =>
    rw [hend] at hstep
    cases hstep

/-- A search has only one end. -/
theorem eq_of_reaches_ends {end₁ end₂ : Traversal} (h₁ : Reaches g t end₁) (h₂ : Reaches g t end₂)
    (hend₁ : end₁.step g = none) (hend₂ : end₂.step g = none) : end₁ = end₂ := by
  have hunique : Relator.RightUnique fun t next : Traversal => t.step g = some next :=
    fun _ _ _ hnext hother => Option.some.inj (hnext.symm.trans hother)
  rcases ReflTransGen.total_of_right_unique hunique h₁ h₂ with h | h
  · exact eq_of_reaches h hend₁
  · exact (eq_of_reaches h hend₂).symm

end Traversal

/-- After two steps for each node and one for each edge the search has ended, and what it has found
are the closing edges. -/
theorem WellFormed.traversal_halts {g : Graph} (wf : g.WellFormed) :
    ((Traversal.start g).after g (2 * g.size + g.edges.length)).step g = none ∧
    ((Traversal.start g).after g (2 * g.size + g.edges.length)).closing = g.closingEdges := by
  have hend := Traversal.sound_start.step_after wf (Traversal.pending_start wf).le
  have hfound : Traversal.Reaches g (Traversal.midway (List.range g.size) [] [] [])
      (Traversal.midway [] [] (searchRoots g (List.range g.size) []).finished
        ([] ++ (searchRoots g (List.range g.size) []).closing)) :=
    Traversal.reaches_searchRoots wf fun _ hi => List.mem_range.1 hi
  have hsame := Traversal.eq_of_reaches_ends (Traversal.reaches_after _) hfound hend rfl
  exact ⟨hend, congrArg Traversal.closing hsame⟩

end Graph

end CrmAutomation
