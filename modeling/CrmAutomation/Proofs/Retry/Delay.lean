import CrmAutomation.Proofs.Number.RoundingOrder
import CrmAutomation.Retry

/-!
# How long a retry waits

The wait before the jitter is the doubled base delay or the cap, whichever is smaller, and
exactly so (`exists_wait`). The jitter moves a wait by at most its share `jitterRange`, up or down
(`spread_within`), so it can carry a capped wait beyond the cap. A base delay that is a double
has no wait after attempt 1024, where the power of two leaves the doubles
(`delay_of_maxDoublings_lt`). `delay_exponential` states the three together.
-/

namespace CrmAutomation

open Double

namespace RetryStrategy

/-! ## The jitter -/

section Jitter

variable {range draw : Double}

/-- A share: a number from zero to one. -/
structure Share (d : Double) : Prop where
  nonneg : NonNeg d
  le_one : Double.le d (.finite false one) = true

attribute [local irreducible] one limit doublings

theorem Share.cases {d : Double} (h : Share d) :
    ∃ s u, d = .finite s u ∧ signed s u = u ∧ u ≤ one := by
  obtain rfl | ⟨s, u, rfl, hs⟩ := h.nonneg.cases
  · exact absurd h.le_one (by simp [Double.le, Double.lt, Double.eq])
  · have bound := (le_finite_iff _ _ _ _).mp h.le_one
    rw [hs] at bound
    exact ⟨s, u, rfl, hs, Int.ofNat_le.mp bound⟩

theorem sign_eq_false {s : Bool} {u : Nat} (pos : 0 < u) (h : signed s u = u) : s = false := by
  cases s with
  | false => rfl
  | true => simp only [signed, if_true] at h; omega

/-- A share of a number of units is a number of units below it. -/
theorem mul_share {s : Bool} {u : Nat} (exact : Exact u) (finite : u < limit)
    (nonneg : signed s u = u) {d : Double} (h : Share d) :
    ∃ t v, Double.mul (.finite s u) d = .finite t v ∧ Exact v ∧ v ≤ u ∧ signed t v = v := by
  obtain ⟨t, r, rfl, ht, hr⟩ := h.cases
  have bound : roundUnits (u * r) one ≤ u :=
    roundUnits_le_of_exact exact one_pos (Nat.mul_le_mul_left u hr)
  refine ⟨s != t, roundUnits (u * r) one, ofUnitsRatio_of_lt (bound.trans_lt finite),
    exact_roundUnits _ one_pos, bound, ?_⟩
  -- A factor with a negative sign is zero.
  rcases Nat.eq_zero_or_pos (u * r) with none | some
  · rw [none, roundUnits_zero]
    cases s != t <;> rfl
  · have hu : 0 < u := Nat.pos_of_mul_pos_right some
    have hr : 0 < r := Nat.pos_of_mul_pos_left some
    obtain rfl := sign_eq_false hu nonneg
    obtain rfl := sign_eq_false hr ht
    rfl

theorem nonNeg_add_share {wait range : Double} (canonical : wait.Canonical) (nonneg : NonNeg wait)
    (hrange : Share range) (finite : wait.isFinite = true) :
    NonNeg (wait.add (wait.mul range)) := by
  obtain rfl | ⟨σ, u, rfl, hu⟩ := nonneg.cases
  · cases finite
  obtain ⟨t, v, width, -, -, ht⟩ := mul_share canonical.1 canonical.2 hu hrange
  rw [width]
  exact nonNeg_add (by omega)

/-- The jitter is no further from zero than the width of its interval, except where twice the
width is beyond the doubles: there it is infinite or no number. -/
theorem uniform_within {s : Bool} {v : Nat} (exact : Exact v) (finite : v < limit)
    (nonneg : signed s v = v) (hdraw : Share draw) :
    (∃ t y, uniform (Double.finite s v).neg (.finite s v) draw = .finite t y ∧ y ≤ v) ∨
      limit ≤ v + v ∧ (uniform (Double.finite s v).neg (.finite s v) draw = .infinite false ∨
        uniform (Double.finite s v).neg (.finite s v) draw = .nan) := by
  have double : Double.sub (.finite s v) (Double.finite s v).neg
      = Double.add (.finite s v) (.finite s v) := by
    simp only [Double.sub, Double.neg, Bool.not_not]
  have sum : (signed s v + signed s v).natAbs = v + v := by omega
  have twice : Exact (v + v) := Nat.mul_two v ▸ exact.mul_two_pow 1
  unfold uniform
  rw [double]
  rcases Nat.lt_or_ge (v + v) limit with small | large
  · -- The doubled width is finite, and its share at most twice the width.
    obtain ⟨t, w, hw, exactSum, hwv⟩ := exists_add_eq twice small sum.le
    have nonnegSum : NonNeg (Double.finite t w) := hw ▸ nonNeg_add (by omega)
    obtain ⟨d, r, hd, -, hr, sign⟩ :=
      mul_share exactSum (hwv.trans_lt small) (signed_of_nonNeg nonnegSum) hdraw
    obtain ⟨t', y, hy, -, bound⟩ := exists_add_eq (s := !s) (u := v) (t := d) (v := r) exact finite
      (by rw [signed_not, sign]; omega)
    exact .inl ⟨t', y, by rw [hw, hd, Double.neg, hy], bound⟩
  · refine .inr ⟨large, ?_⟩
    have infinite : Double.add (.finite s v) (.finite s v) = .infinite false := by
      have pos := limit_pos
      rw [add_finite, if_neg (by omega), decide_eq_false (by omega), sum]
      exact ofUnitsRatio_of_le (limit_le_roundUnits large)
    obtain ⟨d, r, rfl, hd, -⟩ := hdraw.cases
    rw [infinite, Double.mul]
    rcases Nat.eq_zero_or_pos r with rfl | pos
    · exact .inr rfl
    · obtain rfl := sign_eq_false pos hd
      exact .inl (by rw [if_neg pos.ne']; rfl)

theorem size_max_zero_le (d : Double) : NonNeg (Double.max zero d) ∧
    (Double.max zero d).size ≤ d.size := by
  unfold Double.max
  by_cases h : Double.lt zero d = true
  · rw [if_pos h]
    exact ⟨by simp [NonNeg, Double.le, h], le_rfl⟩
  · rw [if_neg h]
    exact ⟨nonNeg_zero, bot_le⟩

/-- The jitter keeps a wait from zero to the wait and its share. -/
theorem spread_within (s : RetryStrategy) {wait : Double} (canonical : wait.Canonical)
    (nonneg : NonNeg wait) (hrange : Share s.jitterRange) (hdraw : Share draw) :
    NonNeg (s.spread draw wait) ∧ (wait.isFinite = true →
      (s.spread draw wait).size ≤ (wait.add (wait.mul s.jitterRange)).size) := by
  unfold spread
  by_cases h : (s.jitter && Double.lt zero wait) = true
  · rw [if_pos h]
    refine ⟨(size_max_zero_le _).1, fun finite => (size_max_zero_le _).2.trans ?_⟩
    obtain rfl | ⟨σ, u, rfl, hu⟩ := nonneg.cases
    · cases finite
    obtain ⟨t, v, width, exact, share, ht⟩ := mul_share canonical.1 canonical.2 hu hrange
    rw [width, size_add]
    rcases uniform_within exact (share.trans_lt canonical.2) ht hdraw with
      ⟨t', y, hy, bound⟩ | ⟨large, infinite | nan⟩
    · have moved := natAbs_signed t' y
      rw [hy, size_add]
      exact saturate_mono (Nat.cast_le.mpr (roundUnits_mono 1 (by omega)))
    · -- The width is beyond half of the doubles, and so is the wait, which is no less.
      rw [saturate_of_le (Nat.cast_le.mpr (limit_le_roundUnits (by omega)))]
      exact le_top
    · rw [nan]
      exact bot_le
  · rw [if_neg h]
    refine ⟨nonneg, fun finite => ?_⟩
    obtain rfl | ⟨σ, u, rfl, hu⟩ := nonneg.cases
    · cases finite
    obtain ⟨t, v, width, -, -, ht⟩ := mul_share canonical.1 canonical.2 hu hrange
    rw [width, size_add]
    calc (Double.finite σ u).size = (roundUnits u 1 : ℕ∞) := by rw [canonical.1.roundUnits, size]
      _ ≤ roundUnits (signed σ u + signed t v).natAbs 1 :=
        Nat.cast_le.mpr (roundUnits_mono 1 (by omega))
      _ ≤ saturate (roundUnits (signed σ u + signed t v).natAbs 1) := le_saturate _

end Jitter

/-! ## The wait -/

/-- A strategy whose waits grow, of numbers a deployment can give it: a base delay and a cap from
zero, and a share for the jitter. A whole base delay is capped below infinity. -/
structure Exponential (s : RetryStrategy) : Prop where
  policy : s.policy = .exponential
  canonicalBase : s.baseDelay.Canonical
  nonnegBase : NonNeg s.baseDelay
  canonicalCap : s.maxDelay.Canonical
  nonnegCap : NonNeg s.maxDelay
  range : Share s.jitterRange
  whole : s.wholeBase = true → s.baseDelay.isWhole = true ∧ s.maxDelay.isFinite = true

/-- The attempts whose doubling is computed: a power of two that is a double, or any number of
doublings of a whole number. -/
def Doubles (s : RetryStrategy) (n : Int) : Prop := n ≤ maxDoublings ∨ s.wholeBase = true

instance (s : RetryStrategy) (n : Int) : Decidable (s.Doubles n) :=
  inferInstanceAs (Decidable (_ ∨ _))

/-- `wait` is the wait after attempt `n`, jitter and rounding aside: the base delay doubled
`n - 1` times, or the cap if that is smaller. -/
structure IsWait (s : RetryStrategy) (n : Int) (wait : Double) : Prop where
  canonical : wait.Canonical
  nonneg : NonNeg wait
  size_eq : wait.size = min (saturate (s.baseDelay.size * 2 ^ (n - 1).toNat)) s.maxDelay.size

variable {s : RetryStrategy} {n : Int} {draw : Double}

theorem maxDoublings_eq : maxDoublings = (doublings : Int) := rfl

attribute [local irreducible] one limit doublings

theorem powerOfTwo_of_lt {k : Nat} (h : k < doublings) :
    powerOfTwo (k : Int) = .ok (ofRatio false (Nat.pow 2 k) 1) := by
  have small : ¬ (doublings : Int) ≤ (k : Int) := by omega
  rw [powerOfTwo, maxDoublings_eq, if_neg small, if_pos (Int.natCast_nonneg k), Int.toNat_natCast]

/-- Doubling a whole number so often leaves the doubles, unless it is zero. -/
theorem limit_le_mul_two_pow {u k : Nat} (whole : u % one = 0) (pos : u ≠ 0) (h : doublings ≤ k) :
    limit ≤ u * 2 ^ k := by
  have units : one ≤ u := Nat.le_of_dvd (Nat.pos_of_ne_zero pos) (Nat.dvd_of_mod_eq_zero whole)
  rw [limit_eq, Nat.mul_comm]
  exact Nat.mul_le_mul units (Nat.pow_le_pow_right (by decide) h)

/-- The doubled base delay, where it is computed. -/
theorem exists_backoff (h : s.Exponential) (hn : 1 ≤ n) (computed : s.Doubles n) :
    ∃ b, s.backoff n = .ok b ∧ b.Canonical ∧ NonNeg b ∧
      b.size = saturate (s.baseDelay.size * 2 ^ (n - 1).toNat) := by
  obtain ⟨k, hk⟩ := Int.eq_ofNat_of_zero_le (show 0 ≤ n - 1 by omega)
  rw [hk, Int.toNat_natCast]
  rcases Nat.lt_or_ge k doublings with few | many
  · have early : (s.wholeBase && decide (maxDoublings < n)) = false := by
      rw [maxDoublings_eq, decide_eq_false (by omega), Bool.and_false]
    refine ⟨s.baseDelay.mul (ofRatio false (Nat.pow 2 k) 1), ?_, canonical_mul _ _,
      nonNeg_mul_two_pow h.canonicalBase h.nonnegBase few,
      size_mul_two_pow h.canonicalBase h.nonnegBase few⟩
    simp only [backoff, h.policy, early, hk, powerOfTwo_of_lt few]
    rfl
  · have late : maxDoublings < n := by rw [maxDoublings_eq]; omega
    have wholeBase : s.wholeBase = true := computed.resolve_left (Int.not_le.mpr late)
    have whole := (h.whole wholeBase).1
    have value : s.backoff n = .ok (if s.baseDelay.isZero then .zero
        else .infinite s.baseDelay.isNegative) := by
      simp only [backoff, h.policy, wholeBase, decide_eq_true late, Bool.and_self, if_true]
    obtain infinite | ⟨σ, u, finite, hu⟩ := h.nonnegBase.cases
    · rw [infinite] at whole
      cases whole
    rw [value, finite]
    rw [finite] at whole
    rcases Nat.eq_zero_or_pos u with rfl | pos
    · refine ⟨zero, rfl, ⟨exact_zero, limit_pos⟩, nonNeg_zero, ?_⟩
      rw [size, Nat.cast_zero, zero_mul, saturate_of_lt (by exact_mod_cast limit_pos)]
      rfl
    · obtain rfl := sign_eq_false pos hu
      have nonzero : (Double.finite false u).isZero = false := by
        cases u with
        | zero => exact absurd pos (Nat.lt_irrefl 0)
        | succ _ => rfl
      have large := limit_le_mul_two_pow (eq_of_beq whole) pos.ne' many
      refine ⟨.infinite false, by rw [nonzero]; rfl, trivial, (nonNeg_infinite_iff _).mpr rfl, ?_⟩
      rw [size, size, saturate_of_le (by exact_mod_cast large)]

theorem exists_wait (h : s.Exponential) (hn : 1 ≤ n) (computed : s.Doubles n) :
    ∃ wait, s.IsWait n wait ∧
      ∀ draw, s.delay draw n = .ok ((s.spread draw wait).roundPlaces 3) := by
  obtain ⟨b, hb, canonical, nonneg, size⟩ := exists_backoff h hn computed
  refine ⟨Double.min b s.maxDelay, ⟨?_, ?_, ?_⟩, fun draw => by simp only [delay, hb]; rfl⟩
  · rcases min_cases b s.maxDelay with e | e <;> rw [e]
    · exact canonical
    · exact h.canonicalCap
  · rcases min_cases b s.maxDelay with e | e <;> rw [e]
    · exact nonneg
    · exact h.nonnegCap
  · rw [size_min nonneg h.nonnegCap, size]

theorem IsWait.size_le (h : s.IsWait n wait) : wait.size ≤ s.maxDelay.size :=
  h.size_eq ▸ min_le_right _ _

theorem IsWait.size_mono {m : Int} {earlier wait : Double} (he : s.IsWait m earlier)
    (h : s.IsWait n wait) (le : m ≤ n) : earlier.size ≤ wait.size := by
  rw [he.size_eq, h.size_eq]
  refine min_le_min_right _ (saturate_mono ?_)
  gcongr
  · exact one_le_two
  · omega

/-- The failure of a power of two that is beyond the doubles. -/
def overflow : Failure := .system .overflow "int too large to convert to float"

/-- A base delay that is a double has no wait once the power of two is beyond the doubles. -/
theorem delay_of_maxDoublings_lt (policy : s.policy = .exponential) (double : s.wholeBase = false)
    (late : maxDoublings < n) (draw : Double) : s.delay draw n = .error overflow := by
  have beyond : maxDoublings ≤ n - 1 := by omega
  simp only [delay, backoff, policy, double, powerOfTwo, if_pos beyond]
  rfl

/-- Nothing else keeps a wait from being computed. -/
theorem of_delay_eq_error {f : Failure} (h : s.delay draw n = .error f) :
    s.policy = .exponential ∧ s.wholeBase = false ∧ maxDoublings < n ∧ f = overflow := by
  unfold delay backoff at h
  cases policy : s.policy with
  | none =>
    rw [policy] at h
    cases h
  | exponential =>
    rw [policy] at h
    dsimp only at h
    by_cases many : (s.wholeBase && decide (maxDoublings < n)) = true
    · rw [if_pos many] at h
      cases h
    · rw [if_neg many] at h
      unfold powerOfTwo at h
      by_cases beyond : maxDoublings ≤ n - 1
      · rw [if_pos beyond] at h
        have late : maxDoublings < n := by omega
        have double : s.wholeBase = false := by simpa [late] using many
        exact ⟨rfl, double, late, (Except.error.inj h).symm⟩
      · rw [if_neg beyond] at h
        split_ifs at h <;> cases h

/-- The waits of an exponential strategy. Each attempt whose doubling is computed has one: a
number from zero which, without jitter, is the doubled base delay or the cap, rounded to
milliseconds, and does not decrease; with jitter it is at most the capped wait and its share, which
can be more than the cap. Every other attempt ends in an overflow. -/
theorem delay_exponential (h : s.Exponential) (hdraw : Share draw) (hn : 1 ≤ n) :
    (s.Doubles n → ∃ wait d, s.IsWait n wait ∧ s.delay draw n = .ok d ∧ NonNeg d ∧
      (s.jitter = false → d = wait.roundPlaces 3 ∧
        d.le (s.maxDelay.roundPlaces 3) = true ∧
        ∀ m, 1 ≤ m → m ≤ n → ∃ d', s.delay draw m = .ok d' ∧ d'.le d = true) ∧
      (s.jitter = true → wait.isFinite = true →
        d.le ((wait.add (wait.mul s.jitterRange)).roundPlaces 3) = true)) ∧
    (¬ s.Doubles n → s.delay draw n = .error overflow) := by
  refine ⟨fun computed => ?_, fun never => ?_⟩
  · obtain ⟨wait, hwait, hdelay⟩ := exists_wait h hn computed
    obtain ⟨nonneg, bound⟩ := spread_within s hwait.canonical hwait.nonneg h.range hdraw
    refine ⟨wait, _, hwait, hdelay draw, nonneg.roundPlaces 3, fun steady => ?_, fun _ finite => ?_⟩
    · have still (draw w : Double) : s.spread draw w = w := by simp [spread, steady]
      simp only [still] at hdelay ⊢
      refine ⟨trivial, le_roundPlaces hwait.nonneg h.nonnegCap 3 hwait.size_le, fun m hm le => ?_⟩
      obtain ⟨earlier, hearlier, hdelay'⟩ :=
        exists_wait h hm (computed.imp_left (Int.le_trans le))
      simp only [still] at hdelay'
      exact ⟨_, hdelay' draw,
        le_roundPlaces hearlier.nonneg hwait.nonneg 3 (hearlier.size_mono hwait le)⟩
    · exact le_roundPlaces nonneg (nonNeg_add_share hwait.canonical hwait.nonneg h.range finite) 3
        (bound finite)
  · obtain ⟨late, double⟩ := not_or.mp never
    exact delay_of_maxDoublings_lt h.policy (Bool.eq_false_iff.mpr double) (Int.not_le.mp late) draw

theorem share_half : Share half := ⟨by decide +kernel, by decide +kernel⟩

theorem canonical_ofInt (i : Int) : (Double.ofInt i).Canonical :=
  canonical_ofUnitsRatio _ _ Nat.one_pos

/-- The strategy of a deployment that tries more than once. -/
theorem exponential_ofSettings {attempts : Int} {base cap : Double} (several : 1 < attempts)
    (canonicalBase : base.Canonical) (nonnegBase : NonNeg base) (canonicalCap : cap.Canonical)
    (nonnegCap : NonNeg cap) : (ofSettings attempts base cap).Exponential := by
  rw [ofSettings, if_neg (Int.not_le.mpr several)]
  exact ⟨rfl, canonicalBase, nonnegBase, canonicalCap, nonnegCap, share_half, Bool.noConfusion⟩

theorem exponential_twoToSixty : (ofSettings 5 (.ofInt 2) (.ofInt 60)).Exponential :=
  exponential_ofSettings (by decide) (canonical_ofInt 2) (by decide +kernel) (canonical_ofInt 60)
    (by decide +kernel)

/-- The third wait of two to sixty seconds, and the first one that overflows. -/
theorem delay_exponential_twoToSixty :
    (∃ wait d, (ofSettings 5 (.ofInt 2) (.ofInt 60)).IsWait 3 wait ∧
      (ofSettings 5 (.ofInt 2) (.ofInt 60)).delay half 3 = .ok d ∧ NonNeg d ∧
      d.le ((wait.add (wait.mul half)).roundPlaces 3) = true) ∧
    (ofSettings 5 (.ofInt 2) (.ofInt 60)).delay half 1025 = .error overflow := by
  obtain ⟨wait, d, hwait, hd, nonneg, -, bound⟩ :=
    (delay_exponential exponential_twoToSixty share_half (by decide : (1 : Int) ≤ 3)).1
      (.inl (by decide))
  have finite : wait.isFinite = true := by
    obtain rfl | ⟨s, u, rfl, -⟩ := hwait.nonneg.cases
    · exact absurd hwait.size_le (by decide +kernel)
    · rfl
  exact ⟨⟨wait, d, hwait, hd, nonneg, bound rfl finite⟩,
    (delay_exponential exponential_twoToSixty share_half (by decide : (1 : Int) ≤ 1025)).2
      (by decide)⟩

/-- A wait can exceed its cap, and an attempt can be without a wait: with a cap of sixty seconds
the jitter makes 75 of them, and attempt 1025 ends in an overflow. -/
theorem delay_beyond_cap :
    ((exponential 5 (.ofInt 60) (.ofInt 60) true).delay (.ofRatio false 3 4) 1).toOption =
      some (.ofInt 75) ∧
    (exponential 5 (.ofInt 2) (.ofInt 60) false).delay zero 1025 = .error overflow :=
  ⟨by decide +kernel, delay_of_maxDoublings_lt rfl rfl (by decide) zero⟩

end RetryStrategy

end CrmAutomation
