import CrmAutomation.Number.Decimal
import CrmAutomation.Proofs.Number.IntegerText
import Mathlib.Data.List.Forall2

/-!
# What reads as a decimal

A text writes a finite decimal (`Decimal.Spells`) with a sign, digits of any script with a point
somewhere among them, and an exponent; underscores are passed over wherever they stand. Such texts
are the ones that read as finite decimals, unless the number is out of range
(`ofText?_eq_finite_iff`).

The characters are read after digits have been turned into ASCII ones and letters into small ones
(`plainChar`); what this does to a single character is said first.
-/

namespace CrmAutomation

namespace Decimal

open Number (Sign)

/-! ## Characters as they are read -/

/-- A character as it is read: digits of any script as ASCII ones, and letters as small ones. -/
def plainChar (c : Char) : Char := (asciiChar c).toLower

/-- What an ASCII character is read as. -/
theorem toLower_ascii : ∀ n < 128,
    ((Char.ofNat n).isDigit = true → (Char.ofNat n).toLower = Char.ofNat n) ∧
    ((Char.ofNat n).toLower.isDigit = true → (Char.ofNat n).isDigit = true) ∧
    ((Char.ofNat n).toLower = '.' ↔ Char.ofNat n = '.') ∧
    ((Char.ofNat n).toLower = '-' ↔ Char.ofNat n = '-') ∧
    ((Char.ofNat n).toLower = '+' ↔ Char.ofNat n = '+') ∧
    ((Char.ofNat n).toLower = 'e' ↔ Char.ofNat n = 'e' ∨ Char.ofNat n = 'E') := by decide

theorem toLower_digit : ∀ n < 10, (Char.ofNat (48 + n)).toLower = Char.ofNat (48 + n) ∧
    (Char.ofNat (48 + n)).isDigit = true ∧ (Char.ofNat (48 + n)).toNat - 48 = n ∧
    Char.ofNat (48 + n) ∉ ['.', '-', '+', 'e'] := by decide

variable {c : Char} {n : Nat}

theorem lt_ten_of_digitValue? (h : Text.digitValue? c = some n) : n < 10 := by
  unfold Text.digitValue? at h
  split at h
  · rename_i hdigit
    simp only [Char.isDigit, Bool.and_eq_true, decide_eq_true_eq] at hdigit
    have hhigh : c.toNat ≤ 57 := hdigit.2
    cases h
    omega
  · split at h
    · cases h
    · obtain ⟨z, hz, rfl⟩ := Option.map_eq_some_iff.mp h
      have hin := List.find?_some hz
      simp only [Bool.and_eq_true, decide_eq_true_eq] at hin
      omega

/-- A character is an ASCII one, a digit of another script, or read as no part of a number. -/
theorem plainChar_cases (c : Char) :
    (c.toNat < 128 ∧ plainChar c = c.toLower) ∨
    128 ≤ c.toNat ∧ ((∃ n < 10, Text.digitValue? c = some n ∧ plainChar c = Char.ofNat (48 + n)) ∨
      Text.digitValue? c = none ∧ plainChar c = Char.ofNat 0) := by
  unfold plainChar asciiChar
  by_cases hascii : c.toNat < 128
  · exact .inl ⟨hascii, by rw [if_pos hascii]⟩
  · refine .inr ⟨Nat.le_of_not_lt hascii, ?_⟩
    rw [if_neg hascii]
    cases hvalue : Text.digitValue? c with
    | none => exact .inr ⟨rfl, rfl⟩
    | some n =>
      have hn := lt_ten_of_digitValue? hvalue
      exact .inl ⟨n, hn, rfl, (toLower_digit n hn).1⟩

/-- A digit is read as the ASCII digit with its value. -/
theorem plainChar_of_digitValue? (h : Text.digitValue? c = some n) :
    plainChar c = Char.ofNat (48 + n) := by
  rcases plainChar_cases c with ⟨hascii, hplain⟩ | ⟨hhigh, ⟨m, -, hm, hplain⟩ | ⟨hnone, -⟩⟩
  · unfold Text.digitValue? at h
    split at h
    · rename_i hdigit
      have hkept := (toLower_ascii c.toNat hascii).1
      rw [Char.ofNat_toNat] at hkept
      rw [hplain, hkept hdigit]
      simp only [Char.isDigit, Bool.and_eq_true, decide_eq_true_eq] at hdigit
      have hlow : 48 ≤ c.toNat := hdigit.1
      cases h
      rw [Nat.add_sub_cancel' hlow, Char.ofNat_toNat]
    · cases h
  · rw [hplain, Option.some.inj (h.symm.trans hm)]
  · rw [hnone] at h
    cases h

theorem isDigit_plainChar (h : Text.digitValue? c = some n) : (plainChar c).isDigit = true := by
  rw [plainChar_of_digitValue? h]
  exact (toLower_digit n (lt_ten_of_digitValue? h)).2.1

theorem toNat_plainChar (h : Text.digitValue? c = some n) : (plainChar c).toNat - 48 = n := by
  rw [plainChar_of_digitValue? h]
  exact (toLower_digit n (lt_ten_of_digitValue? h)).2.2.1

/-- What is read as a digit is one. -/
theorem digitValue?_of_isDigit_plainChar (h : (plainChar c).isDigit = true) :
    Text.digitValue? c = some ((plainChar c).toNat - 48) := by
  rcases plainChar_cases c with ⟨hascii, hplain⟩ | ⟨hhigh, ⟨m, -, hm, -⟩ | ⟨-, hplain⟩⟩
  · have hdigit := (toLower_ascii c.toNat hascii).2.1
    rw [Char.ofNat_toNat, ← hplain] at hdigit
    have hvalue : Text.digitValue? c = some (c.toNat - 48) := by
      rw [Text.digitValue?, if_pos (hdigit h)]
    rw [toNat_plainChar hvalue, hvalue]
  · rw [toNat_plainChar hm, hm]
  · rw [hplain] at h
    exact absurd h (by decide)

/-- The point and the signs are read as they are, and the letter of an exponent as a small one. -/
theorem plainChar_eq_iff (c : Char) :
    (plainChar c = '.' ↔ c = '.') ∧ (plainChar c = '-' ↔ c = '-') ∧ (plainChar c = '+' ↔ c = '+') ∧
      (plainChar c = 'e' ↔ c = 'e' ∨ c = 'E') := by
  rcases plainChar_cases c with ⟨hascii, hplain⟩ | ⟨hhigh, hplain⟩
  · have hmarks := (toLower_ascii c.toNat hascii).2.2
    rwa [Char.ofNat_toNat, ← hplain] at hmarks
  · have hother : plainChar c ∉ ['.', '-', '+', 'e'] := by
      rcases hplain with ⟨m, hm, -, hplain⟩ | ⟨-, hplain⟩
      · exact hplain ▸ (toLower_digit m hm).2.2.2
      · exact hplain ▸ by decide
    have hne : c ∉ ['.', '-', '+', 'e', 'E'] := fun hmem => by
      simp only [List.mem_cons, List.not_mem_nil, or_false] at hmem
      rcases hmem with rfl | rfl | rfl | rfl | rfl <;> exact absurd hhigh (by decide)
    simp only [List.mem_cons, List.not_mem_nil, or_false, not_or] at hother hne
    simp only [hother, hne, or_self, and_self]

/-! ## What decimals are written with -/

/-- Digits of any script, and their values. -/
def Digits (cs : List Char) (ns : List Nat) : Prop :=
  List.Forall₂ (fun c n => Text.digitValue? c = some n) cs ns

/-- Digits and perhaps a point among them: the values of the digits, and how many follow the
point. -/
inductive Mantissa : List Char → List Nat → Nat → Prop where
  | whole {cs : List Char} {ns : List Nat} (digits : Digits cs ns) : Mantissa cs ns 0
  | pointed {whole frac : List Char} {ns ms : List Nat} (before : Digits whole ns)
    (after : Digits frac ms) : Mantissa (whole ++ '.' :: frac) (ns ++ ms) ms.length

/-- An exponent, or none. -/
inductive Exponent : List Char → Int → Prop where
  | absent : Exponent [] 0
  | written {letter : Char} {sign cs : List Char} {negative : Bool} {ns : List Nat}
    (mark : letter = 'e' ∨ letter = 'E') (signed : Sign sign negative) (digits : Digits cs ns)
    (nonempty : ns ≠ []) :
    Exponent (letter :: (sign ++ cs))
      (if negative then -(Number.ofDigits ns : Int) else Number.ofDigits ns)

/-- A text writes the number `± digits * 10 ^ exponent`, underscores aside. -/
def Spells (s : String) (negative : Bool) (digits : Nat) (exponent : Int) : Prop :=
  ∃ sign mantissa tail ns places shift,
    s.toList.filter (· != '_') = sign ++ (mantissa ++ tail) ∧ Sign sign negative ∧
    Mantissa mantissa ns places ∧ ns ≠ [] ∧ Exponent tail shift ∧
    digits = Number.ofDigits ns ∧ exponent = shift - places

/-! ## Reading digits -/

variable {cs : List Char} {ns : List Nat}

theorem digits_iff : Digits cs ns ↔
    (∀ c ∈ cs, (plainChar c).isDigit = true) ∧ ns = cs.map fun c => (plainChar c).toNat - 48 := by
  constructor
  · intro h
    induction h with
    | nil => exact ⟨fun _ hc => absurd hc List.not_mem_nil, rfl⟩
    | cons hdigit _ ih =>
      exact ⟨List.forall_mem_cons.mpr ⟨isDigit_plainChar hdigit, ih.1⟩,
        by rw [List.map_cons, toNat_plainChar hdigit, ← ih.2]⟩
  · rintro ⟨hdigits, rfl⟩
    refine List.forall₂_map_right_iff.mpr (List.forall₂_same.mpr fun c hc => ?_)
    exact digitValue?_of_isDigit_plainChar (hdigits c hc)

theorem Digits.isDigit (h : Digits cs ns) : ∀ c ∈ cs, (plainChar c).isDigit = true :=
  (digits_iff.mp h).1

theorem Digits.eq_nil_iff (h : Digits cs ns) : ns = [] ↔ cs = [] := by
  rw [(digits_iff.mp h).2, List.map_eq_nil_iff]

theorem Digits.digitsValue_eq (h : Digits cs ns) :
    digitsValue (cs.map plainChar) = Number.ofDigits ns := by
  rw [(digits_iff.mp h).2, digitsValue, Number.ofDigits, List.foldl_map, List.foldl_map]

theorem Digits.append {cs' : List Char} {ns' : List Nat} (h : Digits cs ns) (h' : Digits cs' ns') :
    Digits (cs ++ cs') (ns ++ ns') :=
  List.rel_append h h'

/-! ## Reading the sign and the exponent -/

/-- The sign is taken off what is read. -/
theorem exists_splitSign (cs : List Char) : ∃ sign rest, cs = sign ++ rest ∧
    Sign sign (splitSign (cs.map plainChar)).1 ∧
    (splitSign (cs.map plainChar)).2 = rest.map plainChar := by
  cases cs with
  | nil => exact ⟨[], [], rfl, .none, rfl⟩
  | cons c cs =>
    obtain ⟨-, hminus, hplus, -⟩ := plainChar_eq_iff c
    by_cases hm : plainChar c = '-'
    · rw [List.map_cons, hm]
      exact ⟨['-'], cs, by rw [hminus.mp hm]; rfl, .minus, rfl⟩
    · by_cases hp : plainChar c = '+'
      · rw [List.map_cons, hp]
        exact ⟨['+'], cs, by rw [hplus.mp hp]; rfl, .plus, rfl⟩
      · have hsplit : splitSign ((c :: cs).map plainChar) = (false, (c :: cs).map plainChar) := by
          simp [splitSign, hm, hp]
        rw [hsplit]
        exact ⟨[], c :: cs, rfl, .none, rfl⟩

/-- What does not start with a sign has none. -/
theorem splitSign_append {sign rest : List Char} {negative : Bool} (h : Sign sign negative)
    (hrest : ∀ c ∈ rest.head?, c ≠ '-' ∧ c ≠ '+') :
    splitSign ((sign ++ rest).map plainChar) = (negative, rest.map plainChar) := by
  cases h with
  | plus | minus => rfl
  | none =>
    cases rest with
    | nil => rfl
    | cons c rest =>
      obtain ⟨-, hminus, hplus, -⟩ := plainChar_eq_iff c
      obtain ⟨hm, hp⟩ := hrest c rfl
      rw [← hminus.ne] at hm
      rw [← hplus.ne] at hp
      simp [splitSign, hm, hp]

theorem ne_sign_of_isDigit {c : Char} (h : (plainChar c).isDigit = true) : c ≠ '-' ∧ c ≠ '+' := by
  constructor <;> rintro rfl <;> exact absurd h (by decide)

theorem Digits.head_ne_sign (h : Digits cs ns) : ∀ c ∈ cs.head?, c ≠ '-' ∧ c ≠ '+' := fun c hc =>
  ne_sign_of_isDigit (h.isDigit c (List.mem_of_mem_head? hc))

theorem exponent?_eq_some_iff {shift : Int} :
    exponent? (cs.map plainChar) = some shift ↔ Exponent cs shift := by
  constructor
  · intro h
    cases cs with
    | nil =>
      cases h
      exact .absent
    | cons c cs =>
      rw [List.map_cons, exponent?] at h
      split at h
      · rename_i hletter
        obtain ⟨sign, rest, rfl, hsign, hrest⟩ := exists_splitSign cs
        dsimp only at h
        rw [hrest] at h
        split at h
        · cases h
        · rename_i hdigits
          simp only [Bool.or_eq_true, Bool.not_eq_true', not_or, List.isEmpty_iff,
            List.map_eq_nil_iff, Bool.not_eq_false, List.all_map, List.all_eq_true] at hdigits
          have hrun : Digits rest _ := digits_iff.mpr ⟨hdigits.2, rfl⟩
          rw [hrun.digitsValue_eq] at h
          cases h
          exact .written ((plainChar_eq_iff c).2.2.2.mp hletter) hsign hrun
            (by simpa using hdigits.1)
      · cases h
  · intro h
    cases h with
    | absent => rfl
    | @written letter sign cs negative ns mark signed digits nonempty =>
      have hne : cs ≠ [] := fun hnil => nonempty (digits.eq_nil_iff.mpr hnil)
      have hall : (cs.map plainChar).all Char.isDigit = true := by
        simpa using digits.isDigit
      rw [List.map_cons, (plainChar_eq_iff letter).2.2.2.mpr mark, exponent?, if_pos rfl,
        splitSign_append signed digits.head_ne_sign]
      simp [hne, hall, digits.digitsValue_eq]

/-! ## Reading the digits and the point -/

/-- The decimal of digits, some of which follow a point, and an exponent. -/
def assemble? (negative : Bool) (ds : List Char) (places : Nat) (shift? : Option Int) :
    Option Decimal :=
  match ds, shift? with
  | [], _ => none
  | _, none => none
  | ds, some shift =>
    if inRange (digitsValue ds) (shift - places) then
      some (.finite negative (digitsValue ds) (shift - places))
    else none

theorem assemble?_eq_some_iff {negative : Bool} {ds : List Char} {places : Nat}
    {shift? : Option Int} {d : Decimal} :
    assemble? negative ds places shift? = some d ↔ ds ≠ [] ∧ ∃ shift, shift? = some shift ∧
      inRange (digitsValue ds) (shift - places) = true ∧
      d = .finite negative (digitsValue ds) (shift - places) := by
  cases ds with
  | nil => simp [assemble?]
  | cons c ds =>
    cases shift? with
    | none => simp [assemble?]
    | some shift => simp [assemble?, eq_comm (a := d)]

/-- The digits after a point, where the characters start with one, and what follows them. -/
def fraction : List Char → List Char × List Char
  | '.' :: rest => (rest.takeWhile Char.isDigit, rest.dropWhile Char.isDigit)
  | rest => ([], rest)

theorem finite?_eq (negative : Bool) (cs : List Char) :
    finite? negative cs =
      assemble? negative (cs.takeWhile Char.isDigit ++ (fraction (cs.dropWhile Char.isDigit)).1)
        (fraction (cs.dropWhile Char.isDigit)).1.length
        (exponent? (fraction (cs.dropWhile Char.isDigit)).2) :=
  rfl

variable {whole frac tail : List Char} {negative : Bool}

theorem takeWhile_digits (hwhole : ∀ c ∈ whole, (plainChar c).isDigit = true)
    (htail : ∀ c ∈ tail.head?, (plainChar c).isDigit = false) :
    ((whole ++ tail).map plainChar).takeWhile Char.isDigit = whole.map plainChar ∧
    ((whole ++ tail).map plainChar).dropWhile Char.isDigit = tail.map plainChar := by
  have hdigits : ∀ c ∈ whole.map plainChar, c.isDigit = true := by simpa using hwhole
  have hrest : (tail.map plainChar).takeWhile Char.isDigit = [] ∧
      (tail.map plainChar).dropWhile Char.isDigit = tail.map plainChar := by
    cases tail with
    | nil => exact ⟨rfl, rfl⟩
    | cons c tail =>
      have hstop := htail c rfl
      simp [hstop]
  rw [List.map_append, List.takeWhile_append_of_pos hdigits, List.dropWhile_append_of_pos hdigits,
    hrest.1, hrest.2, List.append_nil]
  exact ⟨rfl, rfl⟩

/-- Digits without a point. -/
theorem finite?_whole (hwhole : ∀ c ∈ whole, (plainChar c).isDigit = true)
    (htail : ∀ c ∈ tail.head?, (plainChar c).isDigit = false ∧ c ≠ '.') :
    finite? negative ((whole ++ tail).map plainChar) =
      assemble? negative (whole.map plainChar) 0 (exponent? (tail.map plainChar)) := by
  obtain ⟨htake, hdrop⟩ := takeWhile_digits hwhole fun c hc => (htail c hc).1
  have hnone : fraction (tail.map plainChar) = ([], tail.map plainChar) := by
    cases tail with
    | nil => rfl
    | cons c tail =>
      have hpoint : plainChar c ≠ '.' := (plainChar_eq_iff c).1.ne.mpr (htail c rfl).2
      simp [fraction, hpoint]
  rw [finite?_eq, htake, hdrop, hnone, List.append_nil, List.length_nil]

/-- Digits with a point after the first of them. -/
theorem finite?_pointed (hwhole : ∀ c ∈ whole, (plainChar c).isDigit = true)
    (hfrac : ∀ c ∈ frac, (plainChar c).isDigit = true)
    (htail : ∀ c ∈ tail.head?, (plainChar c).isDigit = false) :
    finite? negative ((whole ++ '.' :: (frac ++ tail)).map plainChar) =
      assemble? negative ((whole ++ frac).map plainChar) frac.length
        (exponent? (tail.map plainChar)) := by
  have hstop : ∀ c ∈ ('.' :: (frac ++ tail)).head?, (plainChar c).isDigit = false := fun c hc => by
    cases hc
    decide
  obtain ⟨htake, hdrop⟩ := takeWhile_digits hwhole hstop
  obtain ⟨htake', hdrop'⟩ := takeWhile_digits hfrac htail
  have hfraction : fraction (('.' :: (frac ++ tail)).map plainChar) =
      (frac.map plainChar, tail.map plainChar) := by
    rw [List.map_cons, (plainChar_eq_iff '.').1.mpr rfl, fraction, htake', hdrop']
  rw [finite?_eq, htake, hdrop, hfraction, ← List.map_append, List.length_map]

/-- Characters start with digits and a point, if there are any, and go on with something else. -/
theorem exists_mantissa (cs : List Char) : ∃ mantissa tail ns places, cs = mantissa ++ tail ∧
    Mantissa mantissa ns places ∧
    ∀ c ∈ tail.head?, (plainChar c).isDigit = false ∧ (c = '.' → '.' ∈ mantissa) := by
  let digit : Char → Bool := fun c => (plainChar c).isDigit
  have hdigits : ∀ l : List Char, Digits (l.takeWhile digit)
      ((l.takeWhile digit).map fun c => (plainChar c).toNat - 48) := fun l =>
    digits_iff.mpr ⟨fun c hc => (List.mem_takeWhile_imp hc : digit c = true), rfl⟩
  have hstop : ∀ l : List Char, ∀ c ∈ (l.dropWhile digit).head?, (plainChar c).isDigit = false := by
    intro l c hc
    have hhead := List.head?_dropWhile_not digit l
    rw [hc] at hhead
    simpa using hhead
  have hsplit := List.takeWhile_append_dropWhile (p := digit) (l := cs)
  cases hrest : cs.dropWhile digit with
  | nil =>
    rw [hrest] at hsplit
    exact ⟨_, [], _, 0, hsplit.symm, .whole (hdigits cs), fun c hc => by cases hc⟩
  | cons c rest =>
    rw [hrest] at hsplit
    have hc := hstop cs c (hrest ▸ rfl)
    by_cases hpoint : c = '.'
    · refine ⟨cs.takeWhile digit ++ '.' :: rest.takeWhile digit, rest.dropWhile digit, _, _, ?_,
        .pointed (hdigits cs) (hdigits rest), fun d hd => ⟨hstop rest d hd, fun _ => by simp⟩⟩
      rw [List.append_assoc, List.cons_append, List.takeWhile_append_dropWhile, ← hpoint, hsplit]
    · refine ⟨cs.takeWhile digit, c :: rest, _, 0, hsplit.symm, .whole (hdigits cs), fun d hd => ?_⟩
      cases hd
      exact ⟨hc, fun hd => absurd hd hpoint⟩

/-- Where digits and a point end, what follows has to be an exponent. -/
theorem Mantissa.finite?_append {mantissa : List Char} {places : Nat} {d : Decimal}
    (h : Mantissa mantissa ns places)
    (htail : ∀ c ∈ tail.head?, (plainChar c).isDigit = false ∧ (c = '.' → '.' ∈ mantissa)) :
    finite? negative ((mantissa ++ tail).map plainChar) = some d ↔
      ns ≠ [] ∧ ∃ shift, Exponent tail shift ∧
        inRange (Number.ofDigits ns) (shift - places) = true ∧
        d = .finite negative (Number.ofDigits ns) (shift - places) := by
  cases h with
  | whole digits =>
    -- A point would have to be among the digits.
    have hend : ∀ c ∈ tail.head?, (plainChar c).isDigit = false ∧ c ≠ '.' := fun c hc =>
      ⟨(htail c hc).1, fun hpoint =>
        absurd (digits.isDigit '.' ((htail c hc).2 hpoint)) (by decide)⟩
    rw [finite?_whole digits.isDigit hend, assemble?_eq_some_iff, digits.digitsValue_eq]
    simp only [exponent?_eq_some_iff, ne_eq, List.map_eq_nil_iff, digits.eq_nil_iff]
  | pointed before after =>
    have hall := before.append after
    rw [List.append_assoc, List.cons_append,
      finite?_pointed before.isDigit after.isDigit fun c hc => (htail c hc).1,
      assemble?_eq_some_iff, hall.digitsValue_eq, List.Forall₂.length_eq after]
    simp only [exponent?_eq_some_iff, ne_eq, List.map_eq_nil_iff, hall.eq_nil_iff]

theorem Exponent.head {shift : Int} (h : Exponent tail shift) :
    ∀ c ∈ tail.head?, (plainChar c).isDigit = false ∧ c ≠ '.' := by
  cases h with
  | absent => exact fun c hc => by cases hc
  | written mark =>
    intro c hc
    cases hc
    rcases mark with rfl | rfl <;> decide

theorem finite?_eq_some_iff {d : Decimal} :
    finite? negative (cs.map plainChar) = some d ↔ ∃ mantissa tail ns places shift,
      cs = mantissa ++ tail ∧ Mantissa mantissa ns places ∧ ns ≠ [] ∧ Exponent tail shift ∧
      inRange (Number.ofDigits ns) (shift - places) = true ∧
      d = .finite negative (Number.ofDigits ns) (shift - places) := by
  constructor
  · intro h
    obtain ⟨mantissa, tail, ns, places, rfl, hmantissa, htail⟩ := exists_mantissa cs
    obtain ⟨hne, shift, hexponent, hrange, hd⟩ := (hmantissa.finite?_append htail).mp h
    exact ⟨mantissa, tail, ns, places, shift, rfl, hmantissa, hne, hexponent, hrange, hd⟩
  · rintro ⟨mantissa, tail, ns, places, shift, rfl, hmantissa, hne, hexponent, hrange, hd⟩
    have htail : ∀ c ∈ tail.head?, (plainChar c).isDigit = false ∧ (c = '.' → '.' ∈ mantissa) :=
      fun c hc => ⟨(hexponent.head c hc).1, fun hpoint => absurd hpoint (hexponent.head c hc).2⟩
    exact (hmantissa.finite?_append htail).mpr ⟨hne, shift, hexponent, hrange, hd⟩

/-! ## Reading a text -/

theorem Mantissa.exists_head {mantissa : List Char} {places : Nat} (h : Mantissa mantissa ns places)
    (hne : ns ≠ []) :
    ∃ c rest, mantissa = c :: rest ∧ ((plainChar c).isDigit = true ∨ c = '.') := by
  cases h with
  | whole digits =>
    obtain ⟨c, rest, rfl⟩ := List.exists_cons_of_ne_nil fun hnil => hne (digits.eq_nil_iff.mpr hnil)
    exact ⟨c, rest, rfl, .inl (digits.isDigit c List.mem_cons_self)⟩
  | @pointed whole frac ns ms before after =>
    cases whole with
    | nil => exact ⟨'.', frac, rfl, .inr rfl⟩
    | cons c whole =>
      exact ⟨c, whole ++ '.' :: frac, rfl, .inl (before.isDigit c List.mem_cons_self)⟩

/-- What starts with a digit or a point is not a word. -/
theorem ofText?_of_splitSign {s : String} {c : Char} {rest : List Char}
    (hsplit : splitSign ((s.toList.filter (· != '_')).map plainChar) =
      (negative, (c :: rest).map plainChar))
    (hc : (plainChar c).isDigit = true ∨ c = '.') :
    ofText? s = finite? negative ((c :: rest).map plainChar) := by
  have hletter : plainChar c ≠ 'i' ∧ plainChar c ≠ 'n' ∧ plainChar c ≠ 's' := by
    rcases hc with hdigit | rfl
    · refine ⟨?_, ?_, ?_⟩ <;>
      · intro heq
        rw [heq] at hdigit
        exact absurd hdigit (by decide)
    · decide
  have hread : splitSign ((s.toList.filter (· != '_')).map fun c => (asciiChar c).toLower) = _ :=
    hsplit
  simp only [ofText?, hread, List.map_cons]
  rw [if_neg, if_neg, if_neg]
  all_goals simp [hletter.1, Ne.symm hletter.2.1, Ne.symm hletter.2.2]

/-- A text reads as a finite decimal just when it writes one that is in range. -/
theorem ofText?_eq_finite_iff {s : String} {digits : Nat} {exponent : Int} :
    ofText? s = some (.finite negative digits exponent) ↔
      Spells s negative digits exponent ∧ inRange digits exponent = true := by
  constructor
  · intro h
    obtain ⟨sign, rest, htext, hsign, hrest⟩ := exists_splitSign (s.toList.filter (· != '_'))
    have hfinite : finite? (splitSign ((s.toList.filter (· != '_')).map plainChar)).1
        (rest.map plainChar) = some (.finite negative digits exponent) := by
      rw [← hrest]
      unfold ofText? at h
      dsimp only at h
      split at h
      · cases h
      · split at h
        · cases h
        · split at h
          · cases h
          · exact h
    obtain ⟨mantissa, tail, ns, places, shift, rfl, hmantissa, hne, hexponent, hrange, hd⟩ :=
      finite?_eq_some_iff.mp hfinite
    cases hd
    exact ⟨⟨sign, mantissa, tail, ns, places, shift, htext, hsign, hmantissa, hne, hexponent, rfl,
      rfl⟩, hrange⟩
  · rintro ⟨⟨sign, mantissa, tail, ns, places, shift, htext, hsign, hmantissa, hne, hexponent, rfl,
      rfl⟩, hrange⟩
    obtain ⟨c, rest, rfl, hc⟩ := hmantissa.exists_head hne
    have hhead : ∀ d ∈ (c :: rest ++ tail).head?, d ≠ '-' ∧ d ≠ '+' := fun d hd => by
      cases hd
      rcases hc with hdigit | rfl
      · exact ne_sign_of_isDigit hdigit
      · decide
    have hsplit := splitSign_append hsign hhead
    rw [← htext] at hsplit
    rw [ofText?_of_splitSign hsplit hc]
    exact finite?_eq_some_iff.mpr ⟨_, tail, ns, places, shift, rfl, hmantissa, hne, hexponent, hrange,
      rfl⟩

example : ofText? "-1_2.50E+3" = some (.finite true 1250 1) := rfl

end Decimal

end CrmAutomation
