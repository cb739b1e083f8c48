import CrmAutomation.Number.Double
import Mathlib.Data.Nat.Log
import Mathlib.Tactic.Ring

/-!
# How rounding moves a number

Rounding to a double keeps a number of units with few enough binary digits
(`roundUnits_of_dvd`), and moves none below a power of two (`two_pow_le_roundUnits`). So a
difference of doubles is exact where both are multiples of one power of two and it is small
against that power, and a larger one stays large. Comparing a clock's distance from a whole second
with a whole number of seconds is therefore as good as exact (`intLt_abs_sub_ofInt`).
-/

namespace CrmAutomation.Double

/-! ## Numbers of units -/

theorem roundHalfEven_of_dvd {num den : Nat} (h : den ∣ num) (pos : 0 < den) :
    roundHalfEven num den = num / den := by
  simp [roundHalfEven, Nat.mod_eq_zero_of_dvd h, pos]

theorem div_le_roundHalfEven (num den : Nat) : num / den ≤ roundHalfEven num den := by
  dsimp only [roundHalfEven]
  split_ifs <;> omega

theorem spacing_eq (units : Nat) : spacing units = 2 ^ (Nat.log2 units - 52) := rfl

theorem roundUnits_one (n : Nat) :
    roundUnits n 1 = roundHalfEven n (spacing n) * spacing n := by
  rw [roundUnits, Nat.div_one, Nat.one_mul]

/-- A number of units with at most 53 binary digits after `j` zeros is kept. -/
theorem roundUnits_of_dvd {n j : Nat} (hdvd : 2 ^ j ∣ n) (hlt : n < 2 ^ (j + 53)) :
    roundUnits n 1 = n := by
  rcases Nat.eq_zero_or_pos n with rfl | pos
  · rfl
  have digits : Nat.log2 n < j + 53 := (Nat.log2_lt pos.ne').mpr hlt
  have step : spacing n ∣ n := by
    rw [spacing_eq]
    exact (Nat.pow_dvd_pow 2 (by omega)).trans hdvd
  rw [roundUnits_one, roundHalfEven_of_dvd step (Nat.two_pow_pos _), Nat.div_mul_cancel step]

/-- Rounding does not cross a power of two. -/
theorem two_pow_le_roundUnits {n k : Nat} (h : 2 ^ k ≤ n) : 2 ^ k ≤ roundUnits n 1 := by
  have pos : n ≠ 0 := (Nat.lt_of_lt_of_le (Nat.two_pow_pos k) h).ne'
  have top : k ≤ Nat.log2 n := (Nat.le_log2 pos).mpr h
  have step : spacing n ∣ 2 ^ Nat.log2 n := Nat.pow_dvd_pow 2 (Nat.sub_le _ _)
  calc 2 ^ k ≤ 2 ^ Nat.log2 n := Nat.pow_le_pow_right (by decide) top
    _ = 2 ^ Nat.log2 n / spacing n * spacing n := (Nat.div_mul_cancel step).symm
    _ ≤ n / spacing n * spacing n :=
      Nat.mul_le_mul_right _ (Nat.div_le_div_right (Nat.log2_self_le pos))
    _ ≤ roundHalfEven n (spacing n) * spacing n :=
      Nat.mul_le_mul_right _ (div_le_roundHalfEven _ _)
    _ = roundUnits n 1 := (roundUnits_one n).symm

/-! ## Units -/

/-- The number of units in `2 ^ -22`, the distance of neighbouring doubles from `2 ^ 30` to
`2 ^ 31`. -/
def grain : Nat := Nat.pow 2 1052

theorem exists_grain_eq : ∃ j, grain = 2 ^ j ∧ 2 ^ (j + 53) ≤ limit :=
  ⟨1052, by decide +kernel⟩

theorem one_eq : one = 2 ^ 22 * grain := by decide +kernel

theorem exists_limit_eq : ∃ k, limit = 2 ^ k := ⟨2098, by decide +kernel⟩

attribute [local irreducible] one limit grain

theorem exists_one_eq : ∃ k, one = 2 ^ k := by
  obtain ⟨j, hj, -⟩ := exists_grain_eq
  exact ⟨22 + j, by rw [one_eq, hj, Nat.pow_add]⟩

theorem one_pos : 0 < one := by
  obtain ⟨k, hk⟩ := exists_one_eq
  exact hk ▸ Nat.two_pow_pos k

/-- The signed number of units of a finite double. -/
def signed (negative : Bool) (units : Nat) : Int := if negative then -(units : Int) else units

theorem natAbs_signed (s : Bool) (u : Nat) : (signed s u).natAbs = u := by
  cases s <;> simp [signed]

theorem signed_not (s : Bool) (u : Nat) : signed (!s) u = - signed s u := by
  cases s <;> simp [signed]

theorem signedUnits?_finite (s : Bool) (u : Nat) :
    (Double.finite s u).signedUnits? = some (signed s u) := by
  cases s <;> rfl

theorem exists_of_signedUnits? {d : Double} {u : Int} (h : d.signedUnits? = some u) :
    ∃ s n, d = .finite s n ∧ signed s n = u := by
  cases d with
  | finite s n => exact ⟨s, n, rfl, Option.some.inj (signedUnits?_finite s n ▸ h)⟩
  | nan => cases h
  | infinite s => cases h

/-! ## Integers and differences -/

theorem ofUnitsRatio_of_lt {s : Bool} {num den : Nat} (h : roundUnits num den < limit) :
    ofUnitsRatio s num den = .finite s (roundUnits num den) := by
  simp only [ofUnitsRatio, if_neg (Nat.not_le.mpr h)]

theorem ofUnitsRatio_zero (s : Bool) : ofUnitsRatio s 0 1 = .finite s 0 := by
  obtain ⟨j, -, hj⟩ := exists_grain_eq
  exact ofUnitsRatio_of_lt (Nat.lt_of_lt_of_le (Nat.two_pow_pos _) hj)

theorem ofUnitsRatio_of_le {s : Bool} {num den : Nat} (h : limit ≤ roundUnits num den) :
    ofUnitsRatio s num den = .infinite s := by
  simp only [ofUnitsRatio, if_pos h]

theorem abs_ofUnitsRatio (s : Bool) (num den : Nat) :
    (ofUnitsRatio s num den).abs = ofUnitsRatio false num den := by
  rcases Nat.lt_or_ge (roundUnits num den) limit with h | h
  · rw [ofUnitsRatio_of_lt h, ofUnitsRatio_of_lt h, Double.abs]
  · rw [ofUnitsRatio_of_le h, ofUnitsRatio_of_le h, Double.abs]

/-- The size of a difference is the exact one, rounded. -/
theorem abs_sub_finite (s s' : Bool) (u v : Nat) :
    (Double.sub (.finite s u) (.finite s' v)).abs
      = ofUnitsRatio false (signed s u - signed s' v).natAbs 1 := by
  change (if signed s u + signed (!s') v = 0 then Double.finite (s && !s') 0
    else ofUnitsRatio _ (signed s u + signed (!s') v).natAbs 1).abs = _
  rw [signed_not, ← Int.sub_eq_add_neg]
  by_cases h : signed s u - signed s' v = 0
  · rw [if_pos h, h]
    exact (ofUnitsRatio_zero false).symm
  · rw [if_neg h, abs_ofUnitsRatio]

theorem ofInt_eq (i : Int) :
    ofInt i = ofUnitsRatio (decide (i < 0)) (i.natAbs * one) 1 := rfl

theorem isFinite_ofUnitsRatio {s : Bool} {num den : Nat} :
    (ofUnitsRatio s num den).isFinite = true ↔ roundUnits num den < limit := by
  rcases Nat.lt_or_ge (roundUnits num den) limit with bounded | beyondLimit
  · rw [ofUnitsRatio_of_lt bounded]
    exact iff_of_true rfl bounded
  · rw [ofUnitsRatio_of_le beyondLimit]
    exact iff_of_false Bool.false_ne_true (Nat.not_lt.mpr beyondLimit)

/-- Only an integer below the limit of the doubles has a finite one. -/
theorem natAbs_lt_of_isFinite {i : Int} (h : (ofInt i).isFinite = true) : i.natAbs < limit := by
  obtain ⟨k, hk⟩ := exists_limit_eq
  rw [ofInt_eq, isFinite_ofUnitsRatio] at h
  by_contra beyondLimit
  have units : 2 ^ k ≤ i.natAbs * one :=
    hk ▸ (Nat.not_lt.mp beyondLimit).trans (Nat.le_mul_of_pos_right _ one_pos)
  have := two_pow_le_roundUnits units
  omega

/-- A finite double of an integer is exact below `2 ^ 53`, and large from there. -/
theorem ofInt_of_isFinite {i : Int} (h : (ofInt i).isFinite = true) :
    ∃ s v, ofInt i = .finite s v ∧
      (i.natAbs < 2 ^ 53 ∧ signed s v = i * one ∨ 2 ^ 53 ≤ i.natAbs ∧ 2 ^ 53 * one ≤ v) := by
  obtain ⟨k, hk⟩ := exists_one_eq
  refine ⟨decide (i < 0), roundUnits (i.natAbs * one) 1, ?_, ?_⟩
  · exact ofUnitsRatio_of_lt (isFinite_ofUnitsRatio.mp (ofInt_eq i ▸ h))
  · rcases Nat.lt_or_ge i.natAbs (2 ^ 53) with small | large
    · have exact : roundUnits (i.natAbs * one) 1 = i.natAbs * one := by
        refine roundUnits_of_dvd (j := k) ⟨i.natAbs, by rw [hk, Nat.mul_comm]⟩ ?_
        rw [hk, Nat.add_comm, Nat.pow_add]
        exact Nat.mul_lt_mul_of_pos_right small (Nat.two_pow_pos k)
      refine .inl ⟨small, ?_⟩
      rw [exact, signed]
      by_cases neg : i < 0
      · rw [decide_eq_true neg, if_pos rfl, Int.natCast_mul, Int.ofNat_natAbs_of_nonpos neg.le,
          Int.neg_mul, Int.neg_neg]
      · rw [decide_eq_false neg, if_neg Bool.false_ne_true, Int.natCast_mul,
          Int.natAbs_of_nonneg (Int.not_lt.mp neg)]
    · refine .inr ⟨large, ?_⟩
      have units : 2 ^ (53 + k) ≤ i.natAbs * one := by
        rw [hk, Nat.pow_add]
        exact Nat.mul_le_mul_right _ large
      calc 2 ^ 53 * one = 2 ^ (53 + k) := by rw [hk, Nat.pow_add]
        _ ≤ roundUnits (i.natAbs * one) 1 := two_pow_le_roundUnits units

/-- An integer below `2 ^ 31` compares with a rounded number of units as with the exact one, if
that is a multiple of `2 ^ -22` or is at least `2 ^ 31`. -/
theorem intLt_ofUnitsRatio {i : Int} {n : Nat} (hi : i < 2 ^ 31)
    (hn : grain ∣ n ∨ 2 ^ 31 * one ≤ n) :
    intLt i (ofUnitsRatio false n 1) = true ↔ i * one < n := by
  obtain ⟨j, hj, bounded⟩ := exists_grain_eq
  have top : 2 ^ 31 * one = 2 ^ (j + 53) := by
    rw [one_eq, hj, ← Nat.mul_assoc, ← Nat.pow_add, ← Nat.pow_add, Nat.add_comm]
  have below : i * one < ((2 ^ (j + 53) : Nat) : Int) := by
    rw [← top, Int.natCast_mul]
    exact Int.mul_lt_mul_of_pos_right hi (Int.natCast_pos.mpr one_pos)
  rcases Nat.lt_or_ge n (2 ^ (j + 53)) with small | large
  · have exact : roundUnits n 1 = n :=
      roundUnits_of_dvd (hj ▸ hn.resolve_right (by omega)) small
    rw [ofUnitsRatio_of_lt (by omega), exact]
    exact decide_eq_true_iff
  · have rounded : 2 ^ (j + 53) ≤ roundUnits n 1 := two_pow_le_roundUnits large
    have exceeded : intLt i (ofUnitsRatio false n 1) = true := by
      rcases Nat.lt_or_ge (roundUnits n 1) limit with finite | beyondLimit
      · rw [ofUnitsRatio_of_lt finite]
        exact decide_eq_true (show i * one < (roundUnits n 1 : Int) by omega)
      · rw [ofUnitsRatio_of_le beyondLimit]
        rfl
    exact iff_of_true exceeded (by omega)

/-- Whether a difference from an integer is more than another integer is decided as if it were not
rounded, where the number is at most `2 ^ 52` and a multiple of `2 ^ -22`. -/
theorem intLt_abs_sub_ofInt {d : Double} {u t i : Int} (hd : d.signedUnits? = some u)
    (grained : grain ∣ u.natAbs) (near : u.natAbs ≤ 2 ^ 52 * one)
    (finite : (ofInt t).isFinite = true) (hi : i < 2 ^ 31) :
    intLt i (d.sub (ofInt t)).abs = true ↔ i * one < (u - t * one).natAbs := by
  obtain ⟨s, n, rfl, hn⟩ := exists_of_signedUnits? hd
  obtain ⟨s', v, hv, sizes⟩ := ofInt_of_isFinite finite
  rw [hv, abs_sub_finite, hn]
  have units : (t * one).natAbs = t.natAbs * one := by
    rw [Int.natAbs_mul, Int.natAbs_natCast]
  have pos := one_pos
  rcases sizes with ⟨-, exact⟩ | ⟨large, far⟩
  · -- Both are multiples of `grain`, and so is their difference.
    rw [exact]
    refine intLt_ofUnitsRatio hi (.inl (Int.natCast_dvd.mp (Int.dvd_sub ?_ ?_)))
    · exact Int.natCast_dvd.mpr grained
    · exact Int.natCast_dvd.mpr (units ▸ one_eq ▸
        Dvd.dvd.mul_left (Dvd.intro_left _ rfl) _)
  · -- The integer is so large that both differences are beyond every `i`.
    have size := natAbs_signed s' v
    have below : i * one < 2 ^ 31 * one :=
      Int.mul_lt_mul_of_pos_right hi (Int.natCast_pos.mpr pos)
    have beyond : 2 ^ 53 * one ≤ t.natAbs * one := Nat.mul_le_mul_right _ large
    rw [intLt_ofUnitsRatio hi (.inr (by omega))]
    exact iff_of_true (by omega) (by omega)

end CrmAutomation.Double
