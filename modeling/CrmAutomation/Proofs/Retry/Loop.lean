import CrmAutomation.Proofs.Retry.Delay

/-!
# What a retry loop does

The outcomes of the attempts at an operation are a script, and the random numbers a second one.
The last attempt is the first that succeeds, fails for good or is the last one allowed
(`RetryStrategy.Stops`), and after each attempt before it there is a wait
(`RetryStrategy.Waits`). A loop comes to its last attempt unless a wait cannot be computed
(`RetryStrategy.exists_course`), and `RetryStrategy.execute` does just that
(`RetryStrategy.execute_course`).
-/

namespace CrmAutomation

namespace RetryStrategy

variable {α : Type} {s : RetryStrategy} {script : Nat → Except Failure α} {draws : Nat → Double}

/-! ## Courses -/

/-- The most attempts. -/
def limit (s : RetryStrategy) : Int := if s.policy = .none then 1 else s.maxAttempts

/-- Whether an outcome is a success or a failure for good. -/
def settles : Except Failure α → Bool
  | .ok _ => true
  | .error f => !f.isTransient

/-- No attempt follows this one: it is the last one allowed, succeeds or fails for good. -/
def Stops (s : RetryStrategy) (script : Nat → Except Failure α) (n : Nat) : Prop :=
  (n : Int) = s.limit ∨ settles (script n) = true

instance (n : Nat) : Decidable (s.Stops script n) := inferInstanceAs (Decidable (_ ∨ _))

/-- Attempt `n` and those after it fail for a while, and are followed by these waits. -/
def Waits (s : RetryStrategy) (script : Nat → Except Failure α) (draws : Nat → Double) :
    Nat → List Double → Prop
  | _, [] => True
  | n, d :: ds => ¬ s.Stops script n ∧ s.delay (draws n) n = .ok d ∧ s.Waits script draws (n + 1) ds

/-- An attempt that is to be followed by another one fails for a while, within the limit. -/
theorem exists_of_not_stops {n : Nat} (h : ¬ s.Stops script n) :
    (n : Int) ≠ s.limit ∧ ∃ f, script n = .error f ∧ f.isTransient = true := by
  obtain ⟨within, unsettled⟩ := not_or.mp h
  refine ⟨within, ?_⟩
  cases hscript : script n with
  | ok a =>
    rw [hscript] at unsettled
    exact absurd rfl unsettled
  | error f =>
    rw [hscript] at unsettled
    exact ⟨f, rfl, by simpa [settles] using unsettled⟩

/-- Whether an attempt is retried does not depend on how its failure is told. -/
theorem shouldRetry_eq (number : Int) (f : Failure) :
    s.shouldRetry number (some f) none = s.shouldRetry number none (some f.isTransient) := rfl

theorem shouldRetry_of_not_stops {n : Nat} {f : Failure} (h : ¬ s.Stops script n)
    (le : (n : Int) ≤ s.limit) (pos : 1 ≤ n) (hf : script n = .error f) :
    s.shouldRetry n (some f) none = true := by
  obtain ⟨within, g, hg, transient⟩ := exists_of_not_stops h
  obtain rfl : g = f := Except.error.inj (hg.symm.trans hf)
  have retried : ¬(s.policy = .none ∨ s.maxAttempts ≤ (n : Int)) := by
    unfold limit at le within
    split_ifs at le within with policy
    · omega
    · simp only [policy, false_or]
      omega
  rw [shouldRetry, if_neg retried, transient]

theorem shouldRetry_of_stops {n : Nat} {f : Failure} (h : s.Stops script n)
    (hf : script n = .error f) : s.shouldRetry n (some f) none = false := by
  unfold shouldRetry
  split_ifs with ended
  · rfl
  · obtain ⟨policy, more⟩ := not_or.mp ended
    rcases h with last | settled
    · rw [limit, if_neg policy] at last
      omega
    · rw [hf] at settled
      simpa [settles] using settled

/-- From any attempt within the limit on, a loop waits until it stops, or until a wait that cannot
be computed. -/
theorem exists_waits (s : RetryStrategy) (script : Nat → Except Failure α) (draws : Nat → Double)
    (n : Nat) (le : (n : Int) ≤ s.limit) : ∃ waits : List Double,
      s.Waits script draws n waits ∧ ((n + waits.length : Nat) : Int) ≤ s.limit ∧
      (s.Stops script (n + waits.length) ∨ ¬ s.Stops script (n + waits.length) ∧
        ∃ g, s.delay (draws (n + waits.length)) (n + waits.length : Nat) = .error g) := by
  obtain ⟨left, hleft⟩ := Int.eq_ofNat_of_zero_le (Int.sub_nonneg_of_le le)
  induction left generalizing n with
  | zero => exact ⟨[], trivial, le, .inl (.inl (by simp only [List.length_nil]; omega))⟩
  | succ left ih =>
    by_cases stops : s.Stops script n
    · exact ⟨[], trivial, le, .inl stops⟩
    cases hd : s.delay (draws n) n with
    | error g => exact ⟨[], trivial, le, .inr ⟨stops, g, hd⟩⟩
    | ok d =>
      obtain ⟨waits, hwaits, hle, hend⟩ := ih (n + 1) (by omega) (by omega)
      have next : n + 1 + waits.length = n + (d :: waits).length := by
        rw [List.length_cons]
        omega
      rw [next] at hle hend
      exact ⟨d :: waits, ⟨stops, hd, hwaits⟩, hle, hend⟩

theorem Waits.not_stops {n : Nat} {waits : List Double} (h : s.Waits script draws n waits) :
    ∀ j, n ≤ j → j < n + waits.length → ¬ s.Stops script j := by
  induction waits generalizing n with
  | nil =>
    intro j hle hlt
    rw [List.length_nil] at hlt
    omega
  | cons d waits ih =>
    intro j hle hlt
    rcases Nat.eq_or_lt_of_le hle with rfl | later
    · exact h.1
    · rw [List.length_cons] at hlt
      exact ih h.2.2 j later (by omega)

theorem Waits.getElem {n : Nat} {waits : List Double} (h : s.Waits script draws n waits) :
    ∀ (i : Nat) (hi : i < waits.length), s.delay (draws (n + i)) (n + i : Nat) = .ok waits[i] := by
  induction waits generalizing n with
  | nil => exact fun i hi => absurd hi (Nat.not_lt_zero i)
  | cons d waits ih =>
    intro i hi
    cases i with
    | zero => exact h.2.1
    | succ i =>
      have later := ih h.2.2 i (Nat.lt_of_succ_lt_succ hi)
      rwa [Nat.add_right_comm] at later

/-! ## The loop on a tape -/

/-- What a loop shows: that it calls the operation, what it tells of a failed attempt, and how
long it waits. -/
inductive LoopEntry where
  | called
  | told (attempt : Int) (failure : Failure) (delay : Double)
  | slept (delay : Double)

/-- How far a loop has come in its scripts, and what it has shown. -/
structure Tape where
  calls : Nat := 0
  drawn : Nat := 0
  log : List LoopEntry := []

namespace Tape

/-- Calls the operation; its outcome is the next one of the script. -/
def call (script : Nat → Except Failure α) : StateM Tape (Except Failure α) := fun t =>
  (script (t.calls + 1), { t with calls := t.calls + 1, log := t.log ++ [.called] })

/-- The next random number. -/
def draw (draws : Nat → Double) : StateM Tape Double := fun t =>
  (draws (t.drawn + 1), { t with drawn := t.drawn + 1 })

/-- Tells a failed attempt and waits. -/
def wait (attempt : Int) (failure : Failure) (delay : Double) : StateM Tape Unit :=
  modify fun t => { t with log := t.log ++ [.told attempt failure delay, .slept delay] }

/-- The log of attempt `n` and those after it, with these waits in between. -/
def logFrom (script : Nat → Except Failure α) : Nat → List Double → List LoopEntry
  | _, [] => [.called]
  | n, d :: ds => .called :: (match script n with
      | .ok _ => []
      | .error f => [.told n f d, .slept d]) ++ logFrom script (n + 1) ds

end Tape

/-- `RetryStrategy.execute` on a tape. -/
def onTape (s : RetryStrategy) (script : Nat → Except Failure α) (draws : Nat → Double) :
    Nat → Int → StateM Tape (Except Failure α) :=
  s.executeFrom (Tape.draw draws) Tape.wait (Tape.call script)

/-- A failed attempt that is retried is told, and the loop goes on with the next one. -/
theorem onTape_succ_of_not_stops {n m : Nat} {d : Double} (stops : ¬ s.Stops script n)
    (le : (n : Int) ≤ s.limit) (pos : 1 ≤ n) (hd : s.delay (draws n) n = .ok d) {t : Tape}
    (calls : t.calls + 1 = n) (drawn : t.drawn + 1 = n) :
    ∃ f, script n = .error f ∧ s.onTape script draws (m + 1) n t =
      s.onTape script draws m (n + 1 : Nat)
        ⟨n, n, t.log ++ [.called, .told n f d, .slept d]⟩ := by
  obtain ⟨-, f, hf, -⟩ := exists_of_not_stops stops
  refine ⟨f, hf, ?_⟩
  have retried := shouldRetry_of_not_stops stops le pos hf
  simp only [onTape, executeFrom, bind, StateT.bind, Tape.call, calls, hf, retried, if_true,
    Tape.draw, drawn, hd, Tape.wait, modify, modifyGet, MonadStateOf.modifyGet, StateT.modifyGet,
    pure, List.append_assoc, Int.natCast_add, Int.natCast_one]
  rfl

/-- A loop waits as long as its waits are computed. -/
theorem onTape_of_waits {waits : List Double} {n m : Nat} (pos : 1 ≤ n)
    (h : s.Waits script draws n waits) (le : ((n + waits.length : Nat) : Int) ≤ s.limit)
    (hleft : waits.length ≤ m) {t : Tape} (calls : t.calls + 1 = n) (drawn : t.drawn + 1 = n) :
    ∃ log : List LoopEntry, Tape.logFrom script n waits = log ++ [.called] ∧
      s.onTape script draws m n t =
        s.onTape script draws (m - waits.length) (n + waits.length : Nat)
          ⟨t.calls + waits.length, t.drawn + waits.length, t.log ++ log⟩ := by
  induction waits generalizing n m t with
  | nil => exact ⟨[], rfl, by simp⟩
  | cons d waits ih =>
    obtain ⟨stops, hd, rest⟩ := h
    rw [List.length_cons] at le hleft
    obtain ⟨m, rfl⟩ : ∃ k, m = k + 1 := ⟨m - 1, by omega⟩
    obtain ⟨f, hf, hrun⟩ := onTape_succ_of_not_stops (m := m) stops (by omega) pos hd
      calls drawn
    obtain ⟨log, hlog, hrest⟩ := ih (m := m) (by omega) rest (by omega) (by omega)
      (t := ⟨n, n, t.log ++ [.called, .told n f d, .slept d]⟩) rfl rfl
    refine ⟨.called :: .told n f d :: .slept d :: log, ?_, ?_⟩
    · simp only [Tape.logFrom, hf, hlog, List.cons_append, List.nil_append]
    · rw [hrun, hrest, List.length_cons, Nat.add_sub_add_right]
      have index : n + 1 + waits.length = n + (waits.length + 1) := by omega
      rw [index]
      simp only [List.append_assoc, List.cons_append, List.nil_append]
      congr 2
      · omega
      · omega

/-- The last attempt of a loop. -/
theorem onTape_of_stops {n left : Nat} (stops : s.Stops script n) {t : Tape}
    (calls : t.calls + 1 = n) :
    s.onTape script draws left n t = (script n, ⟨n, t.drawn, t.log ++ [.called]⟩) := by
  cases left with
  | zero =>
    simp only [onTape, executeFrom, Tape.call, calls]
  | succ left =>
    cases hscript : script n with
    | ok a =>
      simp only [onTape, executeFrom, bind, StateT.bind, Tape.call, calls, hscript]
      rfl
    | error f =>
      have ended := shouldRetry_of_stops stops hscript
      simp only [onTape, executeFrom, bind, StateT.bind, Tape.call, calls, hscript, ended]
      rfl

/-- A loop ends with the failure of a wait that cannot be computed. -/
theorem onTape_of_no_delay {n left : Nat} {g : Failure} (stops : ¬ s.Stops script n)
    (le : (n : Int) ≤ s.limit) (pos : 1 ≤ n) (hd : s.delay (draws n) n = .error g) {t : Tape}
    (calls : t.calls + 1 = n) (drawn : t.drawn + 1 = n) :
    s.onTape script draws (left + 1) n t = (.error g, ⟨n, n, t.log ++ [.called]⟩) := by
  obtain ⟨-, f, hf, -⟩ := exists_of_not_stops stops
  have retried := shouldRetry_of_not_stops stops le pos hf
  simp only [onTape, executeFrom, bind, StateT.bind, Tape.call, calls, hf, retried, if_true,
    Tape.draw, drawn, hd]
  rfl

theorem limit_le (attempts : 1 ≤ s.maxAttempts) : s.limit ≤ s.maxAttempts := by
  unfold limit
  split_ifs
  · exact attempts
  · exact le_rfl

theorem one_le_limit (attempts : 1 ≤ s.maxAttempts) : 1 ≤ s.limit := by
  unfold limit
  split_ifs
  · exact le_rfl
  · exact attempts

/-- Retrying makes the attempts of the script up to the first one that stops, with a wait told and
made between any two, and comes to the outcome of the last; a wait that cannot be computed ends it
earlier. -/
theorem execute_course (attempts : 1 ≤ s.maxAttempts) {waits : List Double}
    (h : s.Waits script draws 1 waits) (le : ((1 + waits.length : Nat) : Int) ≤ s.limit) :
    (s.Stops script (1 + waits.length) →
      s.execute (Tape.draw draws) Tape.wait (Tape.call script) {} =
        (script (1 + waits.length),
          ⟨1 + waits.length, waits.length, Tape.logFrom script 1 waits⟩)) ∧
    (¬ s.Stops script (1 + waits.length) →
      ∀ g, s.delay (draws (1 + waits.length)) (1 + waits.length : Nat) = .error g →
        s.execute (Tape.draw draws) Tape.wait (Tape.call script) {} =
          (.error g, ⟨1 + waits.length, 1 + waits.length, Tape.logFrom script 1 waits⟩)) := by
  have bound := limit_le attempts
  obtain ⟨log, hlog, hrun⟩ := onTape_of_waits (m := (s.maxAttempts - 1).toNat) (t := {})
    le_rfl h le (by omega) rfl rfl
  have start : s.execute (Tape.draw draws) Tape.wait (Tape.call script) {} =
      s.onTape script draws (s.maxAttempts - 1).toNat (1 : Nat) {} := rfl
  rw [start, hrun, hlog]
  refine ⟨fun stops => ?_, fun stops g hg => ?_⟩
  · rw [onTape_of_stops stops (by dsimp only; omega)]
    simp
  · have within : ((1 + waits.length : Nat) : Int) < s.limit :=
      lt_of_le_of_ne le (exists_of_not_stops stops).1
    obtain ⟨left, hleft⟩ : ∃ m, (s.maxAttempts - 1).toNat - waits.length = m + 1 :=
      ⟨(s.maxAttempts - 1).toNat - waits.length - 1, by omega⟩
    rw [hleft, onTape_of_no_delay stops le (by omega) hg (by dsimp only; omega)
      (by dsimp only; omega)]
    simp

/-- Attempt 1025 has no wait, so a base delay that is a double allows no attempt after it. -/
theorem execute_overflows (policy : s.policy = .exponential) (double : s.wholeBase = false)
    (many : maxDoublings + 1 < s.maxAttempts)
    (failing : ∀ j : Nat, (j : Int) ≤ maxDoublings + 1 → settles (script j) = false) :
    (s.execute (Tape.draw draws) Tape.wait (Tape.call script) {}).1 = .error overflow := by
  have pos : (0 : Int) < maxDoublings := by decide
  have attempts : 1 ≤ s.maxAttempts := by omega
  obtain ⟨waits, hwaits, le, ends⟩ := exists_waits s script draws 1 (one_le_limit attempts)
  have limit : s.limit = s.maxAttempts := by rw [RetryStrategy.limit, if_neg (by simp [policy])]
  have stops : ¬ s.Stops script (1 + waits.length) := by
    intro stops
    have late : maxDoublings + 1 < ((1 + waits.length : Nat) : Int) := by
      rcases stops with last | settled
      · omega
      · by_contra early
        rw [failing _ (Int.not_lt.mp early)] at settled
        cases settled
    have waited := hwaits.getElem (waits.length - 1) (by omega)
    rw [delay_of_maxDoublings_lt policy double (by omega)] at waited
    cases waited
  obtain ⟨f, hf⟩ := (ends.resolve_left stops).2
  obtain ⟨-, -, -, rfl⟩ := of_delay_eq_error hf
  rw [(execute_course attempts hwaits le).2 stops _ hf]

/-- A timeout, 1025 times over, and then a success. -/
def patience : Nat → Except Failure Nat := fun n =>
  if n ≤ 1025 then .error (.system .timeout "") else .ok 42

/-- An operation that would succeed with the last attempt it is allowed fails before it. -/
theorem execute_overflows_of_patience :
    (exponential 1026 (.ofInt 2) (.ofInt 60) false).Stops patience 1026 ∧
    (∀ j, 1 ≤ j → j < 1026 →
      ¬ (exponential 1026 (.ofInt 2) (.ofInt 60) false).Stops patience j) ∧
    patience 1026 = .ok 42 ∧
    ((exponential 1026 (.ofInt 2) (.ofInt 60) false).execute (Tape.draw fun _ => half) Tape.wait
      (Tape.call patience) {}).1 = .error overflow := by
  have timeout (j : Nat) (hj : j ≤ 1025) : settles (patience j) = false := by
    rw [patience, if_pos hj]
    rfl
  refine ⟨.inl rfl, fun j _ hlt => ?_, rfl,
    execute_overflows rfl rfl (by decide) fun j hj => timeout j ?_⟩
  · rintro (last | settled)
    · exact absurd (show (j : Int) = 1026 from last) (by omega)
    · rw [timeout j (by omega)] at settled
      cases settled
  · have : maxDoublings = 1024 := rfl
    omega

end RetryStrategy

end CrmAutomation
