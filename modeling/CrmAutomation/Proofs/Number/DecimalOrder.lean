import CrmAutomation.Number.Decimal
import Mathlib.Algebra.Order.Field.Power
import Mathlib.Algebra.Order.Field.Rat
import Mathlib.Data.Nat.Cast.Order.Field
import Mathlib.Order.Compare
import Mathlib.Order.WithBot
import Mathlib.Tactic.Positivity

/-!
# The order of decimals

A decimal stands for a place on the line of the rational numbers with a point at either end
(`Decimal.place?`): a finite one for `± digits * 10 ^ exponent`, an infinity for an end, and
not-a-number for none. Decimals are compared as their places are, whatever their exponents
(`compare?_compares`), although the powers are computed only where the leading digits stand at the
same position: elsewhere the position decides (`zpow_leading_le`, `lt_zpow_leading`).
-/

namespace CrmAutomation

namespace Decimal

/-- The number `digits * 10 ^ exponent`. -/
def magnitude (digits : Nat) (exponent : Int) : ℚ := digits * 10 ^ exponent

/-- The number `± digits * 10 ^ exponent`. -/
def value (negative : Bool) (digits : Nat) (exponent : Int) : ℚ :=
  if negative then -magnitude digits exponent else magnitude digits exponent

/-- The place of a decimal on the line with both ends. -/
def place? : Decimal → Option (WithBot (WithTop ℚ))
  | .nan => none
  | .infinite true => some ⊥
  | .infinite false => some ↑(⊤ : WithTop ℚ)
  | .finite negative digits exponent => some ↑(value negative digits exponent : WithTop ℚ)

/-! ## The position of the leading digit -/

variable {a b : Nat} {e f : Int}

theorem digitCount_pos (n : Nat) : 0 < Double.digitCount n :=
  List.length_pos_iff.2 Nat.toDigits_ne_nil

theorem lt_pow_digitCount (n : Nat) : n < 10 ^ Double.digitCount n :=
  (Nat.length_toDigits_le_iff (by decide) (digitCount_pos n)).1 le_rfl

theorem pow_digitCount_le (ha : 0 < a) : 10 ^ (Double.digitCount a - 1) ≤ a := by
  have hpos := digitCount_pos a
  by_contra hsmall
  rcases Nat.eq_zero_or_pos (Double.digitCount a - 1) with hone | hmore
  · rw [hone] at hsmall
    omega
  · have hle : Double.digitCount a ≤ Double.digitCount a - 1 :=
      (Nat.length_toDigits_le_iff (by decide) hmore).2 (Nat.lt_of_not_le hsmall)
    omega

theorem magnitude_zero (e : Int) : magnitude 0 e = 0 := by simp [magnitude]

theorem magnitude_pos (ha : 0 < a) (e : Int) : 0 < magnitude a e := by
  unfold magnitude
  positivity

theorem magnitude_nonneg (a : Nat) (e : Int) : 0 ≤ magnitude a e := by
  unfold magnitude
  positivity

/-- A number reaches the power of ten at which its leading digit stands. -/
theorem zpow_leading_le (ha : 0 < a) (e : Int) : (10 : ℚ) ^ leading a e ≤ magnitude a e := by
  have hle : ((10 ^ (Double.digitCount a - 1) : ℕ) : ℚ) ≤ a := by exact_mod_cast pow_digitCount_le ha
  have hexponent : leading a e = ((Double.digitCount a - 1 : ℕ) : Int) + e := by
    have hpos := digitCount_pos a
    unfold leading
    omega
  calc (10 : ℚ) ^ leading a e
      = ((10 ^ (Double.digitCount a - 1) : ℕ) : ℚ) * 10 ^ e := by
        rw [hexponent, zpow_add₀ (by norm_num), zpow_natCast, Nat.cast_pow, Nat.cast_ofNat]
    _ ≤ a * 10 ^ e := mul_le_mul_of_nonneg_right hle (by positivity)

/-- A number stays below the next power of ten. -/
theorem lt_zpow_leading (a : Nat) (e : Int) : magnitude a e < (10 : ℚ) ^ (leading a e + 1) := by
  have hlt : (a : ℚ) < ((10 ^ Double.digitCount a : ℕ) : ℚ) := by exact_mod_cast lt_pow_digitCount a
  have hexponent : leading a e + 1 = (Double.digitCount a : Int) + e := by
    unfold leading
    omega
  calc magnitude a e
      < ((10 ^ Double.digitCount a : ℕ) : ℚ) * 10 ^ e := mul_lt_mul_of_pos_right hlt (by positivity)
    _ = 10 ^ (leading a e + 1) := by
        rw [hexponent, zpow_add₀ (by norm_num), zpow_natCast, Nat.cast_pow, Nat.cast_ofNat]

theorem magnitude_lt_of_leading_lt (hb : 0 < b) (h : leading a e < leading b f) :
    magnitude a e < magnitude b f :=
  calc magnitude a e
      < (10 : ℚ) ^ (leading a e + 1) := lt_zpow_leading a e
    _ ≤ 10 ^ leading b f := zpow_le_zpow_right₀ (by norm_num) h
    _ ≤ magnitude b f := zpow_leading_le hb f

/-! ## Comparing -/

/-- Digits that are moved to a lower exponent write the same number. -/
theorem magnitude_mul_pow (a : Nat) {e m : Int} (h : m ≤ e) :
    magnitude (a * Nat.pow 10 (e - m).toNat) m = magnitude a e := by
  have hexponent : e = ((e - m).toNat : Int) + m := by omega
  conv_rhs => rw [magnitude, hexponent, zpow_add₀ (by norm_num), zpow_natCast, ← mul_assoc]
  rw [magnitude, Nat.cast_mul, Nat.pow_eq, Nat.cast_pow, Nat.cast_ofNat]

theorem magnitude_strictMono (m : Int) : StrictMono fun n : Nat => magnitude n m := fun _ _ h =>
  mul_lt_mul_of_pos_right (by exact_mod_cast h) (by positivity)

theorem compareMagnitude_compares (a : Nat) (e : Int) (b : Nat) (f : Int) :
    (compareMagnitude a e b f).Compares (magnitude a e) (magnitude b f) := by
  unfold compareMagnitude
  split
  · rename_i hzero
    rcases Nat.eq_zero_or_pos a with rfl | ha <;> rcases Nat.eq_zero_or_pos b with rfl | hb
    · simp [magnitude_zero, Ordering.Compares]
    · rw [Nat.compare_eq_lt.2 hb, magnitude_zero]
      exact magnitude_pos hb f
    · rw [Nat.compare_eq_gt.2 ha, magnitude_zero]
      exact magnitude_pos ha e
    · omega
  · rename_i hnonzero
    rw [not_or] at hnonzero
    have hpositions := (compare_iff (leading a e) (leading b f)).1 rfl
    cases hcompare : compare (leading a e) (leading b f) with
    | lt =>
      rw [hcompare] at hpositions
      exact magnitude_lt_of_leading_lt (Nat.pos_of_ne_zero hnonzero.2) hpositions
    | gt =>
      rw [hcompare] at hpositions
      exact magnitude_lt_of_leading_lt (Nat.pos_of_ne_zero hnonzero.1) hpositions
    | eq =>
      -- The position does not decide, so both numbers are written with the lower exponent.
      rw [← magnitude_mul_pow a (min_le_left e f), ← magnitude_mul_pow b (min_le_right e f)]
      exact (magnitude_strictMono (min e f)).compares.2 ((compare_iff _ _).1 rfl)

/-- The sign of zero says nothing. -/
theorem value_eq (negative : Bool) (digits : Nat) (exponent : Int) :
    value negative digits exponent =
      if negative && digits != 0 then -magnitude digits exponent else magnitude digits exponent := by
  rcases Nat.eq_zero_or_pos digits with rfl | hpos
  · simp [value, magnitude_zero]
  · simp [value, hpos.ne']

theorem compares_neg {o : Ordering} {p q : ℚ} (h : o.Compares q p) : o.Compares (-p) (-q) := by
  cases o with
  | lt => exact neg_lt_neg h
  | eq => exact congrArg Neg.neg h.symm
  | gt => exact neg_lt_neg h

/-- The places on the line of the rational numbers keep their order on the line with both ends. -/
theorem compares_coe {o : Ordering} {p q : ℚ} (h : o.Compares p q) :
    o.Compares (((p : WithTop ℚ)) : WithBot (WithTop ℚ)) ((q : WithTop ℚ)) :=
  (WithBot.coe_strictMono.comp WithTop.coe_strictMono).compares.2 h

variable {x y : Decimal} {p q : WithBot (WithTop ℚ)}

theorem compare?_finite (negative negative' : Bool) (a b : Nat) (e f : Int) :
    ∃ o, compare? (.finite negative a e) (.finite negative' b f) = some o ∧
      o.Compares (value negative a e) (value negative' b f) := by
  rw [value_eq, value_eq, compare?]
  cases hleft : negative && a != 0 <;> cases hright : negative' && b != 0
  · exact ⟨_, rfl, compareMagnitude_compares a e b f⟩
  · have hb : 0 < b := Nat.pos_of_ne_zero (by simp_all)
    exact ⟨.gt, rfl, (neg_neg_of_pos (magnitude_pos hb f)).trans_le (magnitude_nonneg a e)⟩
  · have ha : 0 < a := Nat.pos_of_ne_zero (by simp_all)
    exact ⟨.lt, rfl, (neg_neg_of_pos (magnitude_pos ha e)).trans_le (magnitude_nonneg b f)⟩
  · exact ⟨_, rfl, compares_neg (compareMagnitude_compares b f a e)⟩

/-- Decimals are compared as the places that they stand for. -/
theorem compare?_compares (hx : place? x = some p) (hy : place? y = some q) :
    ∃ o, compare? x y = some o ∧ o.Compares p q := by
  cases x with
  | nan => cases hx
  | infinite s =>
    cases y with
    | nan => cases hy
    | infinite t =>
      refine ⟨compare t s, rfl, ?_⟩
      cases s <;> cases t <;> cases hx <;> cases hy
      · exact rfl
      · exact bot_lt_iff_ne_bot.2 WithBot.coe_ne_bot
      · exact bot_lt_iff_ne_bot.2 WithBot.coe_ne_bot
      · exact rfl
    | finite t b f =>
      cases hy
      cases s <;> cases hx
      · exact ⟨.gt, rfl, WithBot.coe_lt_coe.2 (WithTop.coe_lt_top _)⟩
      · exact ⟨.lt, rfl, WithBot.bot_lt_coe _⟩
  | finite s a e =>
    cases hx
    cases y with
    | nan => cases hy
    | infinite t =>
      cases t <;> cases hy
      · exact ⟨.lt, rfl, WithBot.coe_lt_coe.2 (WithTop.coe_lt_top _)⟩
      · exact ⟨.gt, rfl, WithBot.bot_lt_coe _⟩
    | finite t b f =>
      cases hy
      obtain ⟨o, ho, hcompares⟩ := compare?_finite s t a b e f
      exact ⟨o, ho, compares_coe hcompares⟩

/-- Not-a-number is in no order with anything. -/
theorem exists_place?_of_compare? {o : Ordering} (h : compare? x y = some o) :
    (∃ p, place? x = some p) ∧ ∃ q, place? y = some q := by
  have hplace : ∀ z : Decimal, z ≠ .nan → ∃ p, place? z = some p := fun z hz => by
    cases z with
    | nan => exact absurd rfl hz
    | infinite s => cases s <;> exact ⟨_, rfl⟩
    | finite s d e => exact ⟨_, rfl⟩
  refine ⟨hplace x ?_, hplace y ?_⟩
  · rintro rfl
    cases y <;> cases h
  · rintro rfl
    cases x <;> cases h

/-- Decimals are the same if they stand for one place. -/
theorem same_iff : same x y = true ↔ ∃ p, place? x = some p ∧ place? y = some p := by
  rw [same, beq_iff_eq]
  constructor
  · intro h
    obtain ⟨⟨p, hp⟩, q, hq⟩ := exists_place?_of_compare? h
    obtain ⟨o, ho, hcompares⟩ := compare?_compares hp hq
    cases ho.symm.trans h
    exact ⟨p, hp, hq.trans (congrArg some hcompares.symm)⟩
  · rintro ⟨p, hp, hq⟩
    obtain ⟨o, ho, hcompares⟩ := compare?_compares hp hq
    rw [ho, hcompares.eq_eq.2 rfl]

/-- A decimal is less than another if its place is below. -/
theorem less_iff (hx : place? x = some p) (hy : place? y = some q) : less x y = true ↔ p < q := by
  obtain ⟨o, ho, hcompares⟩ := compare?_compares hx hy
  rw [less, beq_iff_eq, ho, Option.some.injEq]
  exact hcompares.eq_lt

end Decimal

end CrmAutomation
