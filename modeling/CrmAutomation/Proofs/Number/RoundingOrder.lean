import CrmAutomation.Proofs.Number.Rounding
import Mathlib.Data.ENat.Lattice

/-!
# How rounding keeps order

A double has at most 53 binary digits and then zeros (`Exact`). Rounding is monotone
(`roundUnits_mono`), gives such a number (`exact_roundUnits`) and keeps one
(`roundUnits_mul_of_exact`). So a bound that is itself a double survives each rounding of a
computation.

Doubles that are not negative are compared by their number of units, with one more value for
infinity (`size`): `le_iff_size_le`, `size_min`, `size_add`, `size_roundPlaces_le`. Doubling is
exact until it leaves the range of the doubles (`size_mul_powerOfTwo`).
-/

namespace CrmAutomation.Double

/-! ## Rounding to an integer -/

theorem roundHalfEven_le {num den k : Nat} (h : num ≤ k * den) : roundHalfEven num den ≤ k := by
  rcases Nat.eq_zero_or_pos den with rfl | pos
  · obtain rfl : num = 0 := by omega
    exact Nat.zero_le _
  have quotient : num / den ≤ k := Nat.div_le_of_le_mul (Nat.mul_comm k den ▸ h)
  rcases Nat.lt_or_ge (num / den) k with below | above
  · have : roundHalfEven num den ≤ num / den + 1 := by
      dsimp only [roundHalfEven]
      split_ifs <;> omega
    omega
  · -- The quotient is `k` itself, so nothing is left over.
    have exact : num = k * den :=
      Nat.le_antisymm h ((Nat.mul_le_mul_right den above).trans (Nat.div_mul_le_self num den))
    rw [roundHalfEven_of_dvd (exact ▸ Nat.dvd_mul_left den k) pos]
    exact quotient

theorem roundHalfEven_mono {num num' : Nat} (den : Nat) (h : num ≤ num') :
    roundHalfEven num den ≤ roundHalfEven num' den := by
  have quotients : num / den ≤ num' / den := Nat.div_le_div_right h
  rcases Nat.lt_or_ge (num / den) (num' / den) with below | above
  · calc roundHalfEven num den ≤ num / den + 1 := by
          dsimp only [roundHalfEven]
          split_ifs <;> omega
      _ ≤ num' / den := below
      _ ≤ roundHalfEven num' den := div_le_roundHalfEven num' den
  · have same : num / den = num' / den := Nat.le_antisymm quotients above
    have rests : num % den ≤ num' % den := by
      have := Nat.div_add_mod num den
      have := Nat.div_add_mod num' den
      rw [same] at *
      omega
    dsimp only [roundHalfEven]
    rw [same]
    split_ifs <;> omega

theorem roundHalfEven_mul_right (num den : Nat) {c : Nat} (pos : 0 < c) :
    roundHalfEven (num * c) (den * c) = roundHalfEven num den := by
  have double : 2 * (num % den * c) = 2 * (num % den) * c := (Nat.mul_assoc ..).symm
  simp only [roundHalfEven, Nat.mul_div_mul_right _ _ pos, Nat.mul_mod_mul_right, double,
    Nat.mul_lt_mul_right pos]

/-! ## Rounding to a double -/

theorem roundUnits_mul_right (num den : Nat) {c : Nat} (pos : 0 < c) :
    roundUnits (num * c) (den * c) = roundUnits num den := by
  simp only [roundUnits, Nat.mul_div_mul_right _ _ pos]
  rw [Nat.mul_right_comm, roundHalfEven_mul_right _ _ pos]

/-- A ratio is below the next power of two above its integer part. -/
theorem lt_two_pow_log2_succ_mul (num : Nat) {den : Nat} (pos : 0 < den) :
    num < 2 ^ (Nat.log2 (num / den) + 1) * den :=
  (Nat.div_lt_iff_lt_mul pos).mp Nat.lt_log2_self

theorem roundHalfEven_spacing_le (num : Nat) {den : Nat} (pos : 0 < den) :
    roundHalfEven num (den * spacing (num / den)) ≤ 2 ^ 53 := by
  refine roundHalfEven_le ?_
  calc num ≤ 2 ^ (Nat.log2 (num / den) + 1) * den := (lt_two_pow_log2_succ_mul num pos).le
    _ ≤ 2 ^ (53 + (Nat.log2 (num / den) - 52)) * den :=
      Nat.mul_le_mul_right _ (Nat.pow_le_pow_right (by decide) (by omega))
    _ = 2 ^ 53 * (den * spacing (num / den)) := by
      rw [spacing_eq, Nat.pow_add, Nat.mul_assoc, Nat.mul_comm den]

theorem roundUnits_le_two_pow (num : Nat) {den : Nat} (pos : 0 < den) :
    roundUnits num den ≤ 2 ^ (Nat.log2 (num / den) + 1) := by
  have step : spacing (num / den) ∣ 2 ^ (Nat.log2 (num / den) + 1) :=
    Nat.pow_dvd_pow 2 (by omega)
  obtain ⟨c, hc⟩ := step
  have bound : roundHalfEven num (den * spacing (num / den)) ≤ c := by
    refine roundHalfEven_le ?_
    calc num ≤ 2 ^ (Nat.log2 (num / den) + 1) * den := (lt_two_pow_log2_succ_mul num pos).le
      _ = c * (den * spacing (num / den)) := by rw [hc]; ring
  calc roundUnits num den ≤ c * spacing (num / den) := Nat.mul_le_mul_right _ bound
    _ = 2 ^ (Nat.log2 (num / den) + 1) := by rw [hc, Nat.mul_comm]

theorem two_pow_log2_le_roundUnits {num den : Nat} (pos : num / den ≠ 0) :
    2 ^ Nat.log2 (num / den) ≤ roundUnits num den := by
  have step : spacing (num / den) ∣ 2 ^ Nat.log2 (num / den) := Nat.pow_dvd_pow 2 (Nat.sub_le _ _)
  calc 2 ^ Nat.log2 (num / den)
      = 2 ^ Nat.log2 (num / den) / spacing (num / den) * spacing (num / den) :=
        (Nat.div_mul_cancel step).symm
    _ ≤ num / den / spacing (num / den) * spacing (num / den) :=
      Nat.mul_le_mul_right _ (Nat.div_le_div_right (Nat.log2_self_le pos))
    _ ≤ roundUnits num den := by
      rw [Nat.div_div_eq_div_mul]
      exact Nat.mul_le_mul_right _ (div_le_roundHalfEven _ _)

/-- Rounding keeps order. Numbers with different spacings are apart by a power of two, which
rounding does not cross. -/
theorem roundUnits_mono {num num' : Nat} (den : Nat) (h : num ≤ num') :
    roundUnits num den ≤ roundUnits num' den := by
  have digits : Nat.log2 (num / den) ≤ Nat.log2 (num' / den) := by
    rw [Nat.log2_eq_log_two, Nat.log2_eq_log_two]
    exact Nat.log_mono_right (Nat.div_le_div_right h)
  rcases Nat.eq_or_lt_of_le digits with same | fewer
  · have step : spacing (num / den) = spacing (num' / den) := by rw [spacing_eq, same, spacing_eq]
    simp only [roundUnits, step]
    exact Nat.mul_le_mul_right _ (roundHalfEven_mono _ h)
  · have nonzero : num' / den ≠ 0 := by
      intro zero
      rw [zero, Nat.log2_zero] at fewer
      omega
    have pos : 0 < den := by
      rcases Nat.eq_zero_or_pos den with rfl | pos
      · exact absurd (Nat.div_zero num') nonzero
      · exact pos
    calc roundUnits num den ≤ 2 ^ (Nat.log2 (num / den) + 1) := roundUnits_le_two_pow num pos
      _ ≤ 2 ^ Nat.log2 (num' / den) := Nat.pow_le_pow_right (by decide) fewer
      _ ≤ roundUnits num' den := two_pow_log2_le_roundUnits nonzero

/-- The numbers of units that a double can have: 53 binary digits, then zeros. -/
def Exact (units : Nat) : Prop := ∃ j, 2 ^ j ∣ units ∧ units < 2 ^ (j + 53)

theorem exact_mul_two_pow {k : Nat} (j : Nat) (h : k ≤ 2 ^ 53) : Exact (k * 2 ^ j) := by
  rcases Nat.eq_or_lt_of_le h with rfl | below
  · -- A significand that was rounded up to `2 ^ 53` is a power of two.
    refine ⟨j + 53, ?_, ?_⟩
    · rw [← Nat.pow_add, Nat.add_comm]
    · rw [← Nat.pow_add]
      exact Nat.pow_lt_pow_right (by decide) (by omega)
  · refine ⟨j, Nat.dvd_mul_left _ _, ?_⟩
    rw [Nat.add_comm, Nat.pow_add]
    exact Nat.mul_lt_mul_of_pos_right below (Nat.two_pow_pos j)

theorem Exact.mul_two_pow {u : Nat} (h : Exact u) (k : Nat) : Exact (u * 2 ^ k) := by
  obtain ⟨j, hdvd, hlt⟩ := h
  refine ⟨j + k, ?_, ?_⟩
  · rw [Nat.pow_add]
    exact Nat.mul_dvd_mul_right hdvd _
  · rw [Nat.add_right_comm, Nat.pow_add]
    exact Nat.mul_lt_mul_of_pos_right hlt (Nat.two_pow_pos k)

theorem exact_zero : Exact 0 := ⟨0, by decide, Nat.two_pow_pos _⟩

theorem exact_roundUnits (num : Nat) {den : Nat} (pos : 0 < den) : Exact (roundUnits num den) :=
  exact_mul_two_pow _ (roundHalfEven_spacing_le num pos)

theorem Exact.roundUnits {u : Nat} (h : Exact u) : roundUnits u 1 = u := by
  obtain ⟨j, hdvd, hlt⟩ := h
  exact roundUnits_of_dvd hdvd hlt

/-- A ratio that is a double is kept. -/
theorem roundUnits_mul_of_exact {u den : Nat} (h : Exact u) (pos : 0 < den) :
    Double.roundUnits (u * den) den = u := by
  have scaled := roundUnits_mul_right u 1 pos
  rwa [Nat.one_mul, h.roundUnits] at scaled

theorem roundUnits_le_of_exact {num den m : Nat} (h : Exact m) (pos : 0 < den)
    (bound : num ≤ m * den) : Double.roundUnits num den ≤ m :=
  (roundUnits_mono den bound).trans (roundUnits_mul_of_exact h pos).le

/-- The least exponent whose power of two is beyond the doubles. -/
def doublings : Nat := 1024

theorem limit_eq : limit = 2 ^ doublings * one := by decide +kernel

attribute [local irreducible] one limit doublings

theorem exact_one : Exact one := by
  obtain ⟨k, hk⟩ := exists_one_eq
  have power := exact_mul_two_pow (k := 1) k (by decide)
  rwa [Nat.one_mul, ← hk] at power

theorem limit_pos : 0 < limit := by
  obtain ⟨k, hk⟩ := exists_limit_eq
  exact hk ▸ Nat.two_pow_pos k

theorem limit_le_roundUnits {n : Nat} (h : limit ≤ n) : limit ≤ Double.roundUnits n 1 := by
  obtain ⟨k, hk⟩ := exists_limit_eq
  exact hk ▸ two_pow_le_roundUnits (hk ▸ h)

/-! ## Doubles -/

/-- `a ≤ b`; nothing compares with a NaN. -/
def le (a b : Double) : Bool := lt a b || eq a b

/-- A double that is its own rounding, within the range. -/
def Canonical : Double → Prop
  | .finite _ u => Exact u ∧ u < limit
  | _ => True

/-- A number that is not negative; there are two zeros. -/
def NonNeg (d : Double) : Prop := le zero d = true

instance (d : Double) : Decidable (NonNeg d) := inferInstanceAs (Decidable (_ = true))

/-- The number of units of a double, a NaN and the sign aside. -/
def size : Double → ℕ∞
  | .nan => 0
  | .infinite _ => ⊤
  | .finite _ u => u

/-- A number of units, or infinity where it is beyond the doubles. -/
noncomputable def saturate (n : ℕ∞) : ℕ∞ := if (limit : ℕ∞) ≤ n then ⊤ else n

theorem le_saturate (n : ℕ∞) : n ≤ saturate n := by
  unfold saturate
  split_ifs <;> simp

theorem saturate_of_le {n : ℕ∞} (h : (limit : ℕ∞) ≤ n) : saturate n = ⊤ := if_pos h

theorem saturate_of_lt {n : ℕ∞} (h : n < limit) : saturate n = n := if_neg (not_le.mpr h)

theorem saturate_mono {m n : ℕ∞} (h : m ≤ n) : saturate m ≤ saturate n := by
  by_cases large : (limit : ℕ∞) ≤ n
  · rw [saturate_of_le large]
    exact le_top
  · rw [saturate_of_lt (h.trans_lt (not_le.mp large))]
    exact h.trans (le_saturate n)

theorem size_ofUnitsRatio (s : Bool) (num den : Nat) :
    (ofUnitsRatio s num den).size = saturate (Double.roundUnits num den) := by
  rcases Nat.lt_or_ge (Double.roundUnits num den) limit with small | large
  · rw [ofUnitsRatio_of_lt small, saturate_of_lt (Nat.cast_lt.mpr small), size]
  · rw [ofUnitsRatio_of_le large, saturate_of_le (Nat.cast_le.mpr large), size]

theorem canonical_ofUnitsRatio (s : Bool) (num : Nat) {den : Nat} (pos : 0 < den) :
    (ofUnitsRatio s num den).Canonical := by
  rcases Nat.lt_or_ge (Double.roundUnits num den) limit with small | large
  · rw [ofUnitsRatio_of_lt small]
    exact ⟨exact_roundUnits num pos, small⟩
  · rw [ofUnitsRatio_of_le large]
    trivial

theorem le_finite_iff (s t : Bool) (u v : Nat) :
    le (.finite s u) (.finite t v) = true ↔ signed s u ≤ signed t v := by
  cases s <;> cases t <;> simp [le, lt, eq, signed] <;> omega

theorem nonNeg_finite_iff (s : Bool) (u : Nat) :
    NonNeg (.finite s u) ↔ 0 ≤ signed s u :=
  le_finite_iff false s 0 u

theorem signed_of_nonNeg {s : Bool} {u : Nat} (h : NonNeg (.finite s u)) : signed s u = u := by
  have nonneg := (nonNeg_finite_iff s u).mp h
  cases s with
  | false => rfl
  | true => simp only [signed, if_true] at *; omega

theorem nonNeg_infinite_iff (s : Bool) : NonNeg (.infinite s) ↔ s = false := by
  cases s <;> simp [NonNeg, le, lt, eq, zero]

theorem not_nonNeg_nan : ¬ NonNeg .nan := by simp [NonNeg, le, lt, eq, zero]

theorem nonNeg_zero : NonNeg zero := (nonNeg_finite_iff false 0).mpr (by simp [signed])

/-- A number that is not negative is infinity or has as many units as its size. -/
theorem NonNeg.cases {d : Double} (h : NonNeg d) :
    d = .infinite false ∨ ∃ s u, d = .finite s u ∧ signed s u = u := by
  cases d with
  | nan => exact absurd h not_nonNeg_nan
  | infinite s => exact .inl (by rw [(nonNeg_infinite_iff s).mp h])
  | finite s u => exact .inr ⟨s, u, rfl, signed_of_nonNeg h⟩

theorem le_iff_size_le {a b : Double} (ha : NonNeg a) (hb : NonNeg b) :
    le a b = true ↔ a.size ≤ b.size := by
  obtain rfl | ⟨s, u, rfl, hs⟩ := ha.cases <;> obtain rfl | ⟨t, v, rfl, ht⟩ := hb.cases
  · simp [le, lt, eq, size]
  · simp [le, lt, eq, size]
  · simp [le, lt, eq, size]
  · rw [le_finite_iff, hs, ht, size, size, Int.ofNat_le, Nat.cast_le]

theorem lt_iff_size_lt {a b : Double} (ha : NonNeg a) (hb : NonNeg b) :
    lt a b = true ↔ a.size < b.size := by
  obtain rfl | ⟨s, u, rfl, hs⟩ := ha.cases <;> obtain rfl | ⟨t, v, rfl, ht⟩ := hb.cases
  · simp [lt, size]
  · simp [lt, size]
  · simp [lt, size]
  · change decide (signed s u < signed t v) = true ↔ _
    rw [decide_eq_true_iff, hs, ht, size, size, Int.ofNat_lt, Nat.cast_lt]

/-! ## The operations on sizes -/

theorem min_cases (a b : Double) : Double.min a b = a ∨ Double.min a b = b := by
  unfold Double.min
  split_ifs
  · exact .inr rfl
  · exact .inl rfl

theorem size_min {a b : Double} (ha : NonNeg a) (hb : NonNeg b) :
    (Double.min a b).size = Min.min a.size b.size := by
  unfold Double.min
  by_cases h : lt b a = true
  · rw [if_pos h, min_eq_right ((lt_iff_size_lt hb ha).mp h).le]
  · rw [if_neg h, min_eq_left (not_lt.mp (mt (lt_iff_size_lt hb ha).mpr h))]

theorem nonNeg_ofUnitsRatio (num den : Nat) : NonNeg (ofUnitsRatio false num den) := by
  rcases Nat.lt_or_ge (Double.roundUnits num den) limit with small | large
  · rw [ofUnitsRatio_of_lt small]
    exact (nonNeg_finite_iff false _).mpr (by simp [signed])
  · rw [ofUnitsRatio_of_le large]
    exact (nonNeg_infinite_iff false).mpr rfl

theorem add_finite (s t : Bool) (u v : Nat) :
    add (.finite s u) (.finite t v) =
      if signed s u + signed t v = 0 then .finite (s && t) 0
      else ofUnitsRatio (decide (signed s u + signed t v < 0))
        (signed s u + signed t v).natAbs 1 := rfl

theorem size_add (s t : Bool) (u v : Nat) :
    (add (.finite s u) (.finite t v)).size =
      saturate (Double.roundUnits (signed s u + signed t v).natAbs 1) := by
  rw [add_finite]
  split_ifs with h
  · rw [h, Int.natAbs_zero, exact_zero.roundUnits, saturate_of_lt (Nat.cast_lt.mpr limit_pos), size]
  · exact size_ofUnitsRatio _ _ _

theorem nonNeg_add {s t : Bool} {u v : Nat} (h : 0 ≤ signed s u + signed t v) :
    NonNeg (add (.finite s u) (.finite t v)) := by
  rw [add_finite]
  split_ifs with zero
  · exact (nonNeg_finite_iff _ 0).mpr (by cases s && t <;> simp [signed])
  · rw [decide_eq_false (Int.not_lt.mpr h)]
    exact nonNeg_ofUnitsRatio _ _

/-- A sum whose exact size a double bounds is finite, and that double bounds it. -/
theorem exists_add_eq {s t : Bool} {u v m : Nat} (exact : Exact m) (finite : m < limit)
    (h : (signed s u + signed t v).natAbs ≤ m) :
    ∃ s' n, add (.finite s u) (.finite t v) = .finite s' n ∧ Exact n ∧ n ≤ m := by
  rw [add_finite]
  split_ifs with zero
  · exact ⟨_, 0, rfl, exact_zero, Nat.zero_le m⟩
  · have bound : Double.roundUnits (signed s u + signed t v).natAbs 1 ≤ m :=
      roundUnits_le_of_exact exact Nat.one_pos (by rwa [Nat.mul_one])
    exact ⟨_, _, ofUnitsRatio_of_lt (bound.trans_lt finite), exact_roundUnits _ Nat.one_pos, bound⟩

theorem roundPlaces_finite (places : Nat) (s : Bool) (u : Nat) :
    (Double.finite s u).roundPlaces places =
      ofUnitsRatio s (roundHalfEven (u * Nat.pow 10 places) one * one) (Nat.pow 10 places) := rfl

theorem roundUnits_zero (den : Nat) : Double.roundUnits 0 den = 0 := by
  have bound : roundHalfEven 0 (den * spacing (0 / den)) ≤ 0 := roundHalfEven_le (Nat.zero_le _)
  rw [Double.roundUnits, Nat.le_zero.mp bound, Nat.zero_mul]

theorem NonNeg.roundPlaces {d : Double} (h : NonNeg d) (places : Nat) :
    NonNeg (d.roundPlaces places) := by
  obtain rfl | ⟨s, u, rfl, hs⟩ := h.cases
  · exact h
  rw [roundPlaces_finite]
  cases s with
  | false => exact nonNeg_ofUnitsRatio _ _
  | true =>
    -- Only the negative zero is left.
    obtain rfl : u = 0 := by simp only [signed, if_true] at hs; omega
    have none : roundHalfEven (0 * Nat.pow 10 places) one = 0 :=
      Nat.le_zero.mp (roundHalfEven_le (by rw [Nat.zero_mul]; exact Nat.zero_le _))
    have small : Double.roundUnits 0 (Nat.pow 10 places) < limit :=
      (roundUnits_zero _).symm ▸ limit_pos
    rw [none, Nat.zero_mul, ofUnitsRatio_of_lt small, roundUnits_zero]
    exact h

theorem size_roundPlaces_le {a b : Double} (ha : NonNeg a) (hb : NonNeg b) (places : Nat)
    (h : a.size ≤ b.size) : (a.roundPlaces places).size ≤ (b.roundPlaces places).size := by
  obtain rfl | ⟨t, v, rfl, -⟩ := hb.cases
  · exact le_top
  obtain rfl | ⟨s, u, rfl, -⟩ := ha.cases
  · exact absurd h (by simp [size])
  have units : u ≤ v := Nat.cast_le.mp h
  simp only [roundPlaces_finite, size_ofUnitsRatio]
  refine saturate_mono (Nat.cast_le.mpr (roundUnits_mono _ (Nat.mul_le_mul_right _ ?_)))
  exact roundHalfEven_mono _ (Nat.mul_le_mul_right _ units)

theorem le_roundPlaces {a b : Double} (ha : NonNeg a) (hb : NonNeg b) (places : Nat)
    (h : a.size ≤ b.size) : le (a.roundPlaces places) (b.roundPlaces places) = true :=
  (le_iff_size_le (ha.roundPlaces _) (hb.roundPlaces _)).mpr (size_roundPlaces_le ha hb places h)

/-! ## Doubling -/

theorem ofRatio_two_pow {k : Nat} (h : k < doublings) :
    ofRatio false (Nat.pow 2 k) 1 = .finite false (2 ^ k * one) := by
  have exact : Exact (2 ^ k * one) := Nat.mul_comm one _ ▸ exact_one.mul_two_pow k
  have small : 2 ^ k * one < limit := by
    rw [limit_eq]
    exact Nat.mul_lt_mul_of_pos_right (Nat.pow_lt_pow_right (by decide) h) one_pos
  have kept : Double.roundUnits (2 ^ k * one) 1 = 2 ^ k * one := exact.roundUnits
  change ofUnitsRatio false (2 ^ k * one) 1 = _
  rw [ofUnitsRatio_of_lt (kept.symm ▸ small), kept]

/-- Doubling is exact until it leaves the doubles. -/
theorem size_mul_two_pow {d : Double} (canonical : d.Canonical) (h : NonNeg d) {k : Nat}
    (hk : k < doublings) :
    (d.mul (ofRatio false (Nat.pow 2 k) 1)).size = saturate (d.size * 2 ^ k) := by
  rw [ofRatio_two_pow hk]
  obtain rfl | ⟨s, u, rfl, -⟩ := h.cases
  · have pos : 2 ^ k * one ≠ 0 := (Nat.mul_pos (Nat.two_pow_pos k) one_pos).ne'
    rw [mul, if_neg pos, size, size, ENat.top_mul (by simp), saturate_of_le le_top]
  · have scaled : Double.roundUnits (u * (2 ^ k * one)) one = u * 2 ^ k := by
      rw [← Nat.mul_assoc]
      exact roundUnits_mul_of_exact (canonical.1.mul_two_pow k) one_pos
    rw [mul, size_ofUnitsRatio, scaled, size, Nat.cast_mul, Nat.cast_pow, Nat.cast_ofNat]

theorem nonNeg_mul_two_pow {d : Double} (canonical : d.Canonical) (h : NonNeg d) {k : Nat}
    (hk : k < doublings) : NonNeg (d.mul (ofRatio false (Nat.pow 2 k) 1)) := by
  rw [ofRatio_two_pow hk]
  obtain rfl | ⟨s, u, rfl, hs⟩ := h.cases
  · have pos : 2 ^ k * one ≠ 0 := (Nat.mul_pos (Nat.two_pow_pos k) one_pos).ne'
    rw [mul, if_neg pos]
    exact h
  rw [mul]
  cases s with
  | false => exact nonNeg_ofUnitsRatio _ _
  | true =>
    obtain rfl : u = 0 := by simp only [signed, if_true] at hs; omega
    have small : Double.roundUnits 0 one < limit := (roundUnits_zero _).symm ▸ limit_pos
    rw [Nat.zero_mul, ofUnitsRatio_of_lt small, roundUnits_zero]
    exact h

theorem canonical_mul (a b : Double) : (a.mul b).Canonical := by
  cases a <;> cases b <;> simp only [mul] <;> try trivial
  · split_ifs <;> trivial
  · split_ifs <;> trivial
  · exact canonical_ofUnitsRatio _ _ one_pos

end CrmAutomation.Double
