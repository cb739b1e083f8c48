import CrmAutomation.Number.IntegerText
import Mathlib.Algebra.Group.Nat.Defs
import Mathlib.Data.List.Basic
import Mathlib.Data.List.TakeWhile

/-!
# Integers read back

An integer is written in decimal digits, after a minus sign where it is negative. The text of an
integer with few enough digits reads back as that integer (`readInteger?_toString`), and no two
integers have the same text (`toString_injective`).

What reads as an integer is said by `Spells`: a sign and digits with single underscores between
them, and spacing around them. All such texts read as the integer that the digits write, unless
there are too many of them (`readInteger?_eq_some_iff`).
-/

namespace CrmAutomation.Number

/-! ## What an integer is written with -/

/-- A character of an integer's text: a digit or the minus sign. -/
def IsWritten (c : Char) : Prop := c.isDigit = true ∨ c = '-'

theorem isDigit_of_mem_toDigits {c : Char} {n : Nat} (h : c ∈ Nat.toDigits 10 n) :
    c.isDigit = true :=
  Nat.isDigit_of_mem_toDigits (by decide) (by decide) h

theorem minus_notMem_toDigits (n : Nat) : '-' ∉ Nat.toDigits 10 n := fun h =>
  absurd (isDigit_of_mem_toDigits h) (by decide)

theorem toList_toString : ∀ i : Int,
    (toString i).toList = (if i < 0 then ['-'] else []) ++ Nat.toDigits 10 i.natAbs
  | .ofNat n => by
    rw [if_neg (Int.not_lt.mpr (Int.natCast_nonneg n) : ¬ Int.ofNat n < 0)]
    exact Nat.toList_repr
  | .negSucc n => by
    rw [if_pos (Int.negSucc_lt_zero n)]
    change ("-" ++ (n + 1).repr).toList = _
    rw [String.toList_append, Nat.toList_repr]
    rfl

theorem isWritten_of_mem {c : Char} {i : Int} (h : c ∈ (toString i).toList) : IsWritten c := by
  rw [toList_toString, List.mem_append] at h
  rcases h with h | h
  · split at h
    · exact .inr (List.mem_singleton.mp h)
    · cases h
  · exact .inl (isDigit_of_mem_toDigits h)

theorem toDigits_injective : Function.Injective (Nat.toDigits 10) := fun m n h => by
  rw [← Nat.ofDigitChars_ten_toDigits (n := m), h, Nat.ofDigitChars_ten_toDigits]

/-- No two integers have the same text. -/
theorem toString_injective {i j : Int} (h : toString i = toString j) : i = j := by
  have texts := congrArg String.toList h
  rw [toList_toString, toList_toString] at texts
  by_cases hi : i < 0 <;> by_cases hj : j < 0
  · rw [if_pos hi, if_pos hj] at texts
    have := toDigits_injective (List.append_cancel_left texts)
    omega
  · rw [if_pos hi, if_neg hj] at texts
    exact absurd (texts ▸ List.mem_append_left _ List.mem_cons_self) (minus_notMem_toDigits _)
  · rw [if_neg hi, if_pos hj] at texts
    exact absurd (texts ▸ List.mem_append_left _ List.mem_cons_self) (minus_notMem_toDigits _)
  · rw [if_neg hi, if_neg hj] at texts
    have := toDigits_injective (List.append_cancel_left texts)
    omega

/-! ## Reading -/

theorem digitGroups?_of_isDigit : ∀ cs : List Char, cs ≠ [] → (∀ c ∈ cs, c.isDigit = true) →
    digitGroups? cs = some (cs.map fun c => c.toNat - 48)
  | [], hne, _ => absurd rfl hne
  | [c], _, h => by
    simp [digitGroups?, Text.digitValue?, h c List.mem_cons_self]
  | c :: d :: rest, _, h => by
    have hd : d ≠ '_' := fun hd => absurd (h d (by simp)) (by simp [hd])
    have ih := digitGroups?_of_isDigit (d :: rest) (by simp)
      fun x hx => h x (List.mem_cons_of_mem c hx)
    simp [digitGroups?, Text.digitValue?, h c List.mem_cons_self, hd, ih]

theorem ofDigits_map (cs : List Char) :
    ofDigits (cs.map fun c => c.toNat - 48) = Nat.ofDigitChars 10 cs 0 := by
  rw [ofDigits, List.foldl_map, Nat.ofDigitChars_eq_foldl]
  simp only [Nat.mul_comm]
  rfl

theorem not_isSpacing_of_isWritten {c : Char} (h : IsWritten c) : Text.isSpacing c = false := by
  rcases h with h | rfl
  · simp only [Char.isDigit, Bool.and_eq_true, decide_eq_true_eq] at h
    have low : 48 ≤ c.toNat := h.1
    have high : c.toNat ≤ 57 := h.2
    simp only [Text.isSpacing, Text.isBlank, Bool.and_eq_false_iff, Bool.or_eq_false_iff,
      decide_eq_false_iff_not, beq_eq_false_iff_ne]
    omega
  · decide

theorem trimSpacing_of_forall {cs : List Char} (h : ∀ c ∈ cs, Text.isSpacing c = false) :
    Text.trimSpacing cs = cs := by
  have untouched : ∀ {l : List Char}, (∀ c ∈ l, Text.isSpacing c = false) →
      l.dropWhile Text.isSpacing = l := fun {l} hl => by
    cases l with
    | nil => rfl
    | cons c l => rw [List.dropWhile_cons_of_neg (by simp [hl c List.mem_cons_self])]
  rw [Text.trimSpacing, untouched h, untouched fun c hc => h c (List.mem_reverse.mp hc),
    List.reverse_reverse]

theorem splitSign_toDigits (n : Nat) :
    splitSign (Nat.toDigits 10 n) = (false, Nat.toDigits 10 n) := by
  have digits : ∀ c ∈ Nat.toDigits 10 n, c.isDigit = true := fun _ => isDigit_of_mem_toDigits
  unfold splitSign
  split
  · rename_i h
    exact absurd (digits '-' (h ▸ List.mem_cons_self)) (by decide)
  · rename_i h
    exact absurd (digits '+' (h ▸ List.mem_cons_self)) (by decide)
  · rfl

theorem splitSign_toString (i : Int) :
    splitSign (toString i).toList = (decide (i < 0), Nat.toDigits 10 i.natAbs) := by
  rw [toList_toString]
  by_cases hi : i < 0
  · rw [if_pos hi, decide_eq_true hi]
    rfl
  · rw [if_neg hi, decide_eq_false hi]
    exact splitSign_toDigits _

/-- An integer's text reads back as the integer unless it has too many digits. -/
theorem readInteger?_toString {i : Int} (h : i.natAbs < 10 ^ maxDigits) :
    readInteger? (toString i) = some i := by
  have digits : digitGroups? (Nat.toDigits 10 i.natAbs) = some _ :=
    digitGroups?_of_isDigit _ Nat.toDigits_ne_nil fun _ => isDigit_of_mem_toDigits
  have short : (Nat.toDigits 10 i.natAbs).length ≤ maxDigits :=
    (Nat.length_toDigits_le_iff (by decide) (by decide)).mpr h
  have value : (if decide (i < 0) = true then -(i.natAbs : Int) else i.natAbs) = i := by
    simp only [decide_eq_true_eq]
    split <;> omega
  simp only [readInteger?, trimSpacing_of_forall fun c hc =>
    not_isSpacing_of_isWritten (isWritten_of_mem hc), splitSign_toString, digits, List.length_map,
    if_neg (Nat.not_lt.mpr short), ofDigits_map, Nat.ofDigitChars_ten_toDigits, value]

/-! ## What reads as an integer -/

/-- Digits of any script with single underscores between them, and their values. -/
inductive DigitRun : List Char → List Nat → Prop where
  | single {c : Char} {n : Nat} (digit : Text.digitValue? c = some n) : DigitRun [c] [n]
  | next {c : Char} {n : Nat} {cs : List Char} {ns : List Nat}
    (digit : Text.digitValue? c = some n) (rest : DigitRun cs ns) : DigitRun (c :: cs) (n :: ns)
  | spaced {c : Char} {n : Nat} {cs : List Char} {ns : List Nat}
    (digit : Text.digitValue? c = some n) (rest : DigitRun cs ns) :
    DigitRun (c :: '_' :: cs) (n :: ns)

/-- A sign, or none. -/
inductive Sign : List Char → Bool → Prop where
  | none : Sign [] false
  | plus : Sign ['+'] false
  | minus : Sign ['-'] true

/-- A text writes an integer: its sign and its digits, with spacing around them. -/
def Spells (s : String) (negative : Bool) (digits : List Nat) : Prop :=
  ∃ before sign run after, s.toList = before ++ (sign ++ run) ++ after ∧
    (∀ c ∈ before, Text.isSpacing c = true) ∧ (∀ c ∈ after, Text.isSpacing c = true) ∧
    Sign sign negative ∧ DigitRun run digits

theorem digitRun_of_digitGroups? : ∀ {cs : List Char} {ns : List Nat},
    digitGroups? cs = some ns → DigitRun cs ns
  | [], _, h => by cases h
  | [c], ns, h => by
    obtain ⟨n, hn, rfl⟩ := Option.map_eq_some_iff.mp h
    exact .single hn
  | c :: d :: rest, ns, h => by
    rw [digitGroups?] at h
    split at h
    · cases h
    · rename_i n hn
      split at h
      · rename_i hd
        obtain ⟨ns, hns, rfl⟩ := Option.map_eq_some_iff.mp h
        exact hd ▸ .spaced hn (digitRun_of_digitGroups? hns)
      · obtain ⟨ns, hns, rfl⟩ := Option.map_eq_some_iff.mp h
        exact .next hn (digitRun_of_digitGroups? hns)

theorem digitValue?_underscore : Text.digitValue? '_' = none := by decide

theorem DigitRun.digitGroups?_eq {cs : List Char} {ns : List Nat} (h : DigitRun cs ns) :
    digitGroups? cs = some ns := by
  induction h with
  | single digit => simp [digitGroups?, digit]
  | @next c n cs ns digit rest ih =>
    match cs with
    | [] => cases rest
    | d :: cs =>
      have hd : d ≠ '_' := by
        rintro rfl
        cases rest <;> simp_all [digitValue?_underscore]
      simp [digitGroups?, digit, hd, ih]
  | @spaced c n cs ns digit rest ih => simp [digitGroups?, digit, ih]

/-- No digit of any script is spacing. -/
theorem isSpacing_of_digitValue? {c : Char} {n : Nat} (h : Text.digitValue? c = some n) :
    Text.isSpacing c = false := by
  have blocks : ∀ z ∈ Text.digitZeros, z = 48 ∨ 0x660 ≤ z ∧ z + 10 ≤ 0x1680 ∨
      0x17E0 ≤ z ∧ z + 10 ≤ 0x2000 ∨ 0xA620 ≤ z := by decide
  unfold Text.digitValue? at h
  split at h
  · rename_i hdigit
    exact not_isSpacing_of_isWritten (.inl hdigit)
  · split at h
    · cases h
    · obtain ⟨z, hz, -⟩ := Option.map_eq_some_iff.mp h
      have hmem := blocks z (List.mem_of_find?_eq_some hz)
      have hin := List.find?_some hz
      simp only [Bool.and_eq_true, decide_eq_true_eq] at hin
      simp only [Text.isSpacing, Text.isBlank, Bool.and_eq_false_iff, Bool.or_eq_false_iff,
        decide_eq_false_iff_not, beq_eq_false_iff_ne]
      omega

theorem DigitRun.not_isSpacing {cs : List Char} {ns : List Nat} (h : DigitRun cs ns) :
    ∀ c ∈ cs, Text.isSpacing c = false := by
  induction h with
  | single digit => simpa using isSpacing_of_digitValue? digit
  | next digit _ ih => exact List.forall_mem_cons.mpr ⟨isSpacing_of_digitValue? digit, ih⟩
  | spaced digit _ ih =>
    exact List.forall_mem_cons.mpr ⟨isSpacing_of_digitValue? digit,
      List.forall_mem_cons.mpr ⟨by decide, ih⟩⟩

theorem DigitRun.ne_nil {cs : List Char} {ns : List Nat} (h : DigitRun cs ns) : cs ≠ [] := by
  cases h <;> simp

/-- Trimming takes spacing from both ends. -/
theorem exists_trimSpacing (cs : List Char) : ∃ before after,
    cs = before ++ Text.trimSpacing cs ++ after ∧ (∀ c ∈ before, Text.isSpacing c = true) ∧
      ∀ c ∈ after, Text.isSpacing c = true := by
  let front := cs.dropWhile Text.isSpacing
  refine ⟨cs.takeWhile Text.isSpacing, (front.reverse.takeWhile Text.isSpacing).reverse, ?_,
    fun c hc => List.mem_takeWhile_imp hc,
    fun c hc => List.mem_takeWhile_imp (List.mem_reverse.mp hc)⟩
  have hback : Text.trimSpacing cs ++ (front.reverse.takeWhile Text.isSpacing).reverse = front := by
    rw [Text.trimSpacing, ← List.reverse_append, List.takeWhile_append_dropWhile,
      List.reverse_reverse]
  rw [List.append_assoc, hback, List.takeWhile_append_dropWhile]

theorem dropWhile_spacing_append {before cs : List Char}
    (hbefore : ∀ c ∈ before, Text.isSpacing c = true) (hcs : ∀ c ∈ cs, Text.isSpacing c = false)
    (hne : cs ≠ []) (after : List Char) :
    (before ++ (cs ++ after)).dropWhile Text.isSpacing = cs ++ after := by
  obtain ⟨c, rest, rfl⟩ := List.exists_cons_of_ne_nil hne
  rw [List.dropWhile_append_of_pos hbefore, List.cons_append,
    List.dropWhile_cons_of_neg (by simp [hcs c List.mem_cons_self])]

theorem trimSpacing_append {before cs after : List Char}
    (hbefore : ∀ c ∈ before, Text.isSpacing c = true) (hafter : ∀ c ∈ after, Text.isSpacing c = true)
    (hcs : ∀ c ∈ cs, Text.isSpacing c = false) (hne : cs ≠ []) :
    Text.trimSpacing (before ++ cs ++ after) = cs := by
  have hback : (after.reverse ++ (cs.reverse ++ [])).dropWhile Text.isSpacing = cs.reverse ++ [] :=
    dropWhile_spacing_append (by simpa using hafter) (by simpa using hcs) (by simpa using hne) []
  rw [Text.trimSpacing, List.append_assoc, dropWhile_spacing_append hbefore hcs hne,
    List.reverse_append, ← List.append_nil cs.reverse, hback, List.append_nil, List.reverse_reverse]

theorem exists_splitSign (cs : List Char) :
    ∃ sign, cs = sign ++ (splitSign cs).2 ∧ Sign sign (splitSign cs).1 := by
  unfold splitSign
  split
  · exact ⟨['-'], rfl, .minus⟩
  · exact ⟨['+'], rfl, .plus⟩
  · exact ⟨[], rfl, .none⟩

theorem Sign.splitSign_append {sign run : List Char} {negative : Bool} {digits : List Nat}
    (h : Sign sign negative) (hrun : DigitRun run digits) :
    splitSign (sign ++ run) = (negative, run) := by
  cases h with
  | plus | minus => rfl
  | none =>
    obtain ⟨c, rest, rfl⟩ := List.exists_cons_of_ne_nil hrun.ne_nil
    have hdigit : ∃ n, Text.digitValue? c = some n := by
      cases hrun with
      | single digit | next digit _ | spaced digit _ => exact ⟨_, digit⟩
    obtain ⟨n, hn⟩ := hdigit
    have hminus : c ≠ '-' := by
      rintro rfl
      simp [Text.digitValue?] at hn
    have hplus : c ≠ '+' := by
      rintro rfl
      simp [Text.digitValue?] at hn
    simp [splitSign, hminus, hplus]

/-- The characters between the spacing are a sign and digits. -/
theorem Spells.exists_run {s : String} {negative : Bool} {digits : List Nat}
    (h : Spells s negative digits) :
    ∃ run, splitSign (Text.trimSpacing s.toList) = (negative, run) ∧ DigitRun run digits := by
  obtain ⟨before, sign, run, after, htext, hbefore, hafter, hsign, hrun⟩ := h
  have hcore : ∀ c ∈ sign ++ run, Text.isSpacing c = false := by
    intro c hc
    rcases List.mem_append.mp hc with hc | hc
    · cases hsign with
      | none => cases hc
      | plus | minus => rw [List.mem_singleton.mp hc]; decide
    · exact hrun.not_isSpacing c hc
  have htrim : Text.trimSpacing s.toList = sign ++ run := by
    rw [htext, trimSpacing_append hbefore hafter hcore (by simp [hrun.ne_nil])]
  exact ⟨run, by rw [htrim, hsign.splitSign_append hrun], hrun⟩

/-- A text with too many digits does not read as an integer. -/
theorem Spells.readInteger?_eq_none {s : String} {negative : Bool} {digits : List Nat}
    (h : Spells s negative digits) (hlong : maxDigits < digits.length) : readInteger? s = none := by
  obtain ⟨run, hsplit, hrun⟩ := h.exists_run
  rw [readInteger?, hsplit]
  simp only [hrun.digitGroups?_eq, if_pos hlong]

/-- A text reads as an integer just when it writes one with few enough digits. -/
theorem readInteger?_eq_some_iff {s : String} {i : Int} :
    readInteger? s = some i ↔ ∃ negative digits, Spells s negative digits ∧
      digits.length ≤ maxDigits ∧
      i = if negative then -(ofDigits digits : Int) else ofDigits digits := by
  constructor
  · intro h
    obtain ⟨before, after, htext, hbefore, hafter⟩ := exists_trimSpacing s.toList
    obtain ⟨sign, hsplit, hsign⟩ := exists_splitSign (Text.trimSpacing s.toList)
    rw [readInteger?] at h
    dsimp only at h
    split at h
    · cases h
    · rename_i digits hdigits
      split at h
      · cases h
      · rename_i hshort
        exact ⟨_, digits, ⟨before, sign, _, after, by rw [← hsplit]; exact htext, hbefore, hafter,
          hsign, digitRun_of_digitGroups? hdigits⟩, Nat.not_lt.mp hshort, (Option.some.inj h).symm⟩
  · rintro ⟨negative, digits, hspells, hshort, rfl⟩
    obtain ⟨run, hsplit, hrun⟩ := hspells.exists_run
    rw [readInteger?, hsplit]
    simp only [hrun.digitGroups?_eq, if_neg (Nat.not_lt.mpr hshort)]

end CrmAutomation.Number
