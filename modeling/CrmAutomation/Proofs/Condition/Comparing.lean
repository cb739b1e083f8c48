import CrmAutomation.Condition
import CrmAutomation.Proofs.Number.DecimalOrder
import CrmAutomation.Proofs.Number.DecimalText

/-!
# Comparing values

What a value is worth as a number is said by `Comparison.IsNumber`: it is no boolean, and its trimmed
text writes a decimal that is in range. The orders decide the order of these numbers, and have no
result where one of two values is no number (`exists_order_iff`). Equality is wider: values with
one text are equal as well, and so are infinities. It is an equivalence all the same, as the place of
a value on the line of numbers depends on its text only (`sameValue_iff`), and between numbers it is
equality of the numbers, so that of two numbers either one is less or they are equal.

Decimals that are too large to be read are no numbers, even though their text writes one.
-/

namespace CrmAutomation

namespace Comparison

/-- A value is the number that its trimmed text writes; booleans are not numbers. -/
def IsNumber (v : Value) (q : ℚ) : Prop :=
  (∀ b, v ≠ .bool b) ∧ ∃ negative digits exponent,
    Decimal.Spells (Text.trim v.display) negative digits exponent ∧
    Decimal.inRange digits exponent = true ∧ q = Decimal.value negative digits exponent

/-- The result of comparing what a field holds with an expected value. -/
def verdict (field : String) (o : Operator) (actual expected : Value) : Except Problem Bool :=
  compareValue ⟨field, o.text, expected⟩ o actual

/-- The place of a value on the line of numbers. -/
def place? (v : Value) : Option (WithBot (WithTop ℚ)) :=
  (Decimal.ofText? (comparedText v)).bind Decimal.place?

variable {a b c v : Value} {p q : ℚ} {field role : String}

/-! ## Numbers -/

theorem comparedText_of_ne_bool (h : ∀ b, v ≠ .bool b) : comparedText v = Text.trim v.display := by
  cases v with
  | bool b => exact absurd rfl (h b)
  | null | int | float | str | list | obj => rfl

/-- A number is read as a finite decimal that stands for it. -/
theorem isNumber_iff : IsNumber v q ↔ (∀ b, v ≠ .bool b) ∧ ∃ negative digits exponent,
    Decimal.ofText? (Text.trim v.display) = some (.finite negative digits exponent) ∧
      q = Decimal.value negative digits exponent := by
  simp only [IsNumber, Decimal.ofText?_eq_finite_iff, and_assoc]

theorem IsNumber.place?_eq (h : IsNumber v q) :
    place? v = some ((q : WithTop ℚ) : WithBot (WithTop ℚ)) := by
  obtain ⟨hbool, negative, digits, exponent, hread, rfl⟩ := isNumber_iff.mp h
  rw [place?, comparedText_of_ne_bool hbool, hread]
  rfl

theorem number_eq_ok_iff {d : Decimal} : number role field v = .ok d ↔
    (∀ b, v ≠ .bool b) ∧ Decimal.ofText? (Text.trim v.display) = some d ∧ d.isFinite = true := by
  constructor
  · intro h
    have hbool : ∀ b, v ≠ .bool b := by
      rintro b rfl
      cases h
    rw [number.eq_2 role field v hbool] at h
    split at h
    · cases h
    · rename_i hread
      split at h
      · rename_i hfinite
        cases h
        exact ⟨hbool, hread, hfinite⟩
      · cases h
  · rintro ⟨hbool, hread, hfinite⟩
    simp only [number.eq_2 role field v hbool, hread, hfinite, if_true]

theorem IsNumber.exists_number (h : IsNumber v q) (role field : String) :
    ∃ d, number role field v = .ok d ∧
      d.place? = some ((q : WithTop ℚ) : WithBot (WithTop ℚ)) := by
  obtain ⟨hbool, negative, digits, exponent, hread, rfl⟩ := isNumber_iff.mp h
  exact ⟨_, number_eq_ok_iff.mpr ⟨hbool, hread, rfl⟩, rfl⟩

theorem isNumber_of_number {d : Decimal} (h : number role field v = .ok d) :
    ∃ q, IsNumber v q := by
  obtain ⟨hbool, hread, hfinite⟩ := number_eq_ok_iff.mp h
  cases d with
  | nan | infinite => cases hfinite
  | finite negative digits exponent =>
    exact ⟨_, isNumber_iff.mpr ⟨hbool, negative, digits, exponent, hread, rfl⟩⟩

/-! ## Equality -/

/-- Values with one text stand at one place, if anywhere. -/
theorem place?_of_comparedText (h : comparedText a = comparedText b) : place? a = place? b := by
  rw [place?, place?, h]

/-- Values are equal if they have one text, or stand at one place. -/
theorem sameValue_iff : sameValue a b = true ↔
    comparedText a = comparedText b ∨ ∃ p, place? a = some p ∧ place? b = some p := by
  rw [sameValue, Bool.or_eq_true, beq_iff_eq]
  refine or_congr_right ?_
  unfold place?
  cases Decimal.ofText? (comparedText a) <;> cases Decimal.ofText? (comparedText b) <;>
    simp [Decimal.same_iff]

theorem sameValue_equivalence : Equivalence fun a b => sameValue a b = true where
  refl _ := sameValue_iff.mpr (.inl rfl)
  symm h := sameValue_iff.mpr <| (sameValue_iff.mp h).imp Eq.symm fun ⟨p, ha, hb⟩ => ⟨p, hb, ha⟩
  trans {a b c} hab hbc := by
    refine sameValue_iff.mpr ?_
    rcases sameValue_iff.mp hab with hab | ⟨p, ha, hb⟩ <;>
      rcases sameValue_iff.mp hbc with hbc | ⟨q, hb', hc⟩
    · exact .inl (hab.trans hbc)
    · exact .inr ⟨q, (place?_of_comparedText hab).trans hb', hc⟩
    · exact .inr ⟨p, ha, (place?_of_comparedText hbc).symm.trans hb⟩
    · cases hb.symm.trans hb'
      exact .inr ⟨p, ha, hc⟩

/-- Numbers are equal values if they are equal. -/
theorem sameValue_iff_eq (ha : IsNumber a p) (hb : IsNumber b q) :
    sameValue a b = true ↔ p = q := by
  have hplaces : place? a = place? b ↔ p = q := by
    rw [ha.place?_eq, hb.place?_eq, Option.some.injEq, WithBot.coe_inj, WithTop.coe_inj]
  rw [sameValue_iff]
  constructor
  · rintro (htext | ⟨r, hr, hr'⟩)
    · exact hplaces.mp (place?_of_comparedText htext)
    · exact hplaces.mp (hr.trans hr'.symm)
  · exact fun h => .inr ⟨_, ha.place?_eq, (hplaces.mpr h) ▸ ha.place?_eq⟩

/-! ## Order -/

/-- The orders of numbers are the order of what they are worth. -/
theorem verdict_of_isNumber (field : String) (ha : IsNumber a p) (hb : IsNumber b q) :
    verdict field .lessThan a b = .ok (decide (p < q)) ∧
    verdict field .equals a b = .ok (decide (p = q)) ∧
    verdict field .greaterThan a b = .ok (decide (q < p)) := by
  obtain ⟨x, hx, hplace⟩ := ha.exists_number "Subject value" field
  obtain ⟨y, hy, hplace'⟩ := hb.exists_number "Condition value" field
  have hless : ∀ {p q : ℚ} {x y : Decimal},
      x.place? = some ((p : WithTop ℚ) : WithBot (WithTop ℚ)) →
      y.place? = some ((q : WithTop ℚ) : WithBot (WithTop ℚ)) →
      Decimal.less x y = decide (p < q) := fun hx hy => by
    rw [Bool.eq_iff_iff, decide_eq_true_iff, Decimal.less_iff hx hy, WithBot.coe_lt_coe,
      WithTop.coe_lt_coe]
  refine ⟨?_, ?_, ?_⟩
  · simp only [verdict, compareValue, hx, hy, ← hless hplace hplace']
    rfl
  · rw [verdict, compareValue, Except.ok.injEq, Bool.eq_iff_iff, decide_eq_true_iff]
    exact sameValue_iff_eq ha hb
  · simp only [verdict, compareValue, hx, hy, ← hless hplace' hplace]
    rfl

/-- The orders have a result only for two numbers. -/
theorem exists_order_iff {o : Operator} (ho : o = .greaterThan ∨ o = .lessThan) :
    (∃ r, verdict field o a b = .ok r) ↔ (∃ p, IsNumber a p) ∧ ∃ q, IsNumber b q := by
  constructor
  · have hnumbers : ∀ {less : Decimal → Decimal → Bool} {r : Bool},
        (do
          let left ← number "Subject value" field a
          let right ← number "Condition value" field b
          return less left right) = Except.ok r → (∃ p, IsNumber a p) ∧ ∃ q, IsNumber b q := by
      intro less r h
      cases hleft : number "Subject value" field a with
      | error problem =>
        rw [hleft] at h
        cases h
      | ok left =>
        cases hright : number "Condition value" field b with
        | error problem =>
          rw [hleft, hright] at h
          cases h
        | ok right => exact ⟨isNumber_of_number hleft, isNumber_of_number hright⟩
    rintro ⟨r, h⟩
    rcases ho with rfl | rfl <;> exact hnumbers h
  · rintro ⟨⟨p, ha⟩, q, hb⟩
    obtain ⟨hless, -, hgreater⟩ := verdict_of_isNumber field ha hb
    rcases ho with rfl | rfl
    · exact ⟨_, hgreater⟩
    · exact ⟨_, hless⟩

theorem IsNumber.unique (h : IsNumber v p) (h' : IsNumber v q) : p = q :=
  (sameValue_iff_eq h h').mp (sameValue_iff.mpr (.inl rfl))

/-- Where the orders have a result, one value is less than the other or they are equal. -/
theorem exactly_one_of_order {o : Operator} (ho : o = .greaterThan ∨ o = .lessThan) {r : Bool}
    (h : verdict field o a b = .ok r) :
    (verdict field .lessThan a b = .ok true ∧ verdict field .equals a b = .ok false ∧
      verdict field .greaterThan a b = .ok false) ∨
    (verdict field .lessThan a b = .ok false ∧ verdict field .equals a b = .ok true ∧
      verdict field .greaterThan a b = .ok false) ∨
    verdict field .lessThan a b = .ok false ∧ verdict field .equals a b = .ok false ∧
      verdict field .greaterThan a b = .ok true := by
  obtain ⟨⟨p, ha⟩, q, hb⟩ := (exists_order_iff ho).mp ⟨r, h⟩
  obtain ⟨hless, hequal, hgreater⟩ := verdict_of_isNumber field ha hb
  rw [hless, hequal, hgreater]
  rcases lt_trichotomy p q with hlt | heq | hgt
  · exact .inl (by simp [hlt, hlt.ne, hlt.not_gt])
  · exact .inr (.inl (by simp [heq]))
  · exact .inr (.inr (by simp [hgt, hgt.ne', hgt.not_gt]))

theorem lessThan_trans (hab : verdict field .lessThan a b = .ok true)
    (hbc : verdict field .lessThan b c = .ok true) : verdict field .lessThan a c = .ok true := by
  obtain ⟨⟨p, ha⟩, q, hb⟩ := (exists_order_iff (.inr rfl)).mp ⟨_, hab⟩
  obtain ⟨⟨q', hb'⟩, r, hc⟩ := (exists_order_iff (.inr rfl)).mp ⟨_, hbc⟩
  obtain rfl := hb.unique hb'
  rw [(verdict_of_isNumber field ha hb).1, Except.ok.injEq, decide_eq_true_iff] at hab
  rw [(verdict_of_isNumber field hb hc).1, Except.ok.injEq, decide_eq_true_iff] at hbc
  rw [(verdict_of_isNumber field ha hc).1, decide_eq_true (hab.trans hbc)]

theorem greaterThan_eq_lessThan {r : Bool} (h : verdict field .greaterThan a b = .ok r) :
    verdict field .greaterThan a b = verdict field .lessThan b a := by
  obtain ⟨⟨p, ha⟩, q, hb⟩ := (exists_order_iff (.inl rfl)).mp ⟨r, h⟩
  rw [(verdict_of_isNumber field ha hb).2.2, (verdict_of_isNumber field hb ha).1]

/-- A condition is decided by comparing what the field holds with the expected value. -/
theorem holds_eq_verdict {contact : Contact} (h : contact.lookup? field = some a) (o : Operator)
    (b : Value) : holds ⟨field, o.text, b⟩ contact = verdict field o a b := by
  simp only [holds, Operator.ofText?_text, h, verdict]

/-- Conditions compare what a field holds with an expected value. Equality is an equivalence, and
its negation the other operator. The orders have a result for two numbers and a problem otherwise,
and between numbers all three operators are those of the rational numbers: exactly one of them
holds, less-than is transitive, and greater-than is less-than the other way round. -/
theorem verdict_orders_values (field : String) :
    (∀ (contact : Contact) a, contact.lookup? field = some a → ∀ o b,
      holds ⟨field, o.text, b⟩ contact = verdict field o a b) ∧
    (Equivalence fun a b => verdict field .equals a b = .ok true) ∧
    (∀ a b, ∃ r, verdict field .equals a b = .ok r ∧ verdict field .notEquals a b = .ok !r) ∧
    (∀ o, o = .greaterThan ∨ o = .lessThan → ∀ a b,
      ((∃ r, verdict field o a b = .ok r) ↔ (∃ p, IsNumber a p) ∧ ∃ q, IsNumber b q) ∧
      (¬((∃ p, IsNumber a p) ∧ ∃ q, IsNumber b q) →
        ∃ problem, verdict field o a b = .error problem) ∧
      ∀ r, verdict field o a b = .ok r →
        (verdict field .lessThan a b = .ok true ∧ verdict field .equals a b = .ok false ∧
          verdict field .greaterThan a b = .ok false) ∨
        (verdict field .lessThan a b = .ok false ∧ verdict field .equals a b = .ok true ∧
          verdict field .greaterThan a b = .ok false) ∨
        verdict field .lessThan a b = .ok false ∧ verdict field .equals a b = .ok false ∧
          verdict field .greaterThan a b = .ok true) ∧
    (∀ a b p q, IsNumber a p → IsNumber b q →
      verdict field .lessThan a b = .ok (decide (p < q)) ∧
      verdict field .equals a b = .ok (decide (p = q)) ∧
      verdict field .greaterThan a b = .ok (decide (q < p))) ∧
    (∀ a b c, verdict field .lessThan a b = .ok true → verdict field .lessThan b c = .ok true →
      verdict field .lessThan a c = .ok true) ∧
    ∀ a b r, verdict field .greaterThan a b = .ok r →
      verdict field .greaterThan a b = verdict field .lessThan b a := by
  have hequal : (fun a b => verdict field .equals a b = .ok true) =
      fun a b => sameValue a b = true := by
    funext a b
    rw [verdict, compareValue, Except.ok.injEq]
  refine ⟨fun _ _ h o b => holds_eq_verdict h o b, hequal ▸ sameValue_equivalence,
    fun _ _ => ⟨_, rfl, rfl⟩, fun o ho a b => ⟨exists_order_iff ho, fun hother => ?_,
      fun r h => exactly_one_of_order ho h⟩, fun a b p q ha hb => verdict_of_isNumber field ha hb,
    fun a b c hab hbc => lessThan_trans hab hbc, fun a b r h => greaterThan_eq_lessThan h⟩
  cases h : verdict field o a b with
  | error problem => exact ⟨problem, rfl⟩
  | ok r => exact absurd ((exists_order_iff ho).mp ⟨r, h⟩) hother

/-- A one with more zeros than a number may have. -/
def tooLarge : String := "1e1000000000000000000"

/-- A number that is too large to be read is in no order with others. -/
theorem lessThan_refuses_tooLarge :
    Decimal.Spells (Text.trim (Value.str tooLarge).display) false 1 (10 ^ 18) ∧
    verdict "score" .lessThan (.str tooLarge) (.int 5) =
      .error (.notNumeric "Subject value" "score" (.str tooLarge)) := by
  have hzeros : ∀ n, Decimal.Digits (List.replicate n '0') (List.replicate n 0) := fun n => by
    induction n with
    | zero => exact .nil
    | succ n ih => exact .cons rfl ih
  have hdigits : Decimal.Digits ('1' :: List.replicate 18 '0') (1 :: List.replicate 18 0) :=
    .cons rfl (hzeros 18)
  refine ⟨⟨[], ['1'], 'e' :: ('1' :: List.replicate 18 '0'), [1], 0, 10 ^ 18, by decide, .none,
    .whole (.cons rfl .nil), by decide, ?_, rfl, rfl⟩, rfl⟩
  exact .written (.inl rfl) .none hdigits (by decide)

end Comparison

end CrmAutomation
