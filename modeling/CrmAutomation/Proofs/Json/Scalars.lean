import CrmAutomation.Json.Reader
import CrmAutomation.Json.Writer
import CrmAutomation.Proofs.Number.IntegerText

/-!
# Texts and integers read back

A text in a document is read back whatever its characters are, those outside the basic plane from
both halves of a pair (`readText_toList`). An integer is read back unless it is too long
(`readScalar_toString`); what follows it must not go on with the number (`EndsNumber`).
-/

namespace CrmAutomation

namespace Json

/-! ## Characters -/

theorem hex_succ (width n : Nat) :
    Text.hex (width + 2) n = Text.hex (width + 1) (n / 16) ++ [(n % 16).digitChar] := by
  unfold Text.hex
  by_cases hn : n < 16
  · rw [Nat.toDigits_of_lt_base hn, Nat.div_eq_of_lt hn, Nat.toDigits_zero, Nat.mod_eq_of_lt hn]
    simp [List.replicate_succ']
  · have digits : Nat.toDigits 16 n = Nat.toDigits 16 (n / 16) ++ [(n % 16).digitChar] := by
      rw [← Nat.toDigits_of_lt_base (b := 16) (Nat.mod_lt n (by decide)),
        Nat.toDigits_append_toDigits (by decide) (by omega) (Nat.mod_lt n (by decide)),
        Nat.div_add_mod]
    have width : width + 2 - ((Nat.toDigits 16 (n / 16)).length + 1)
        = width + 1 - (Nat.toDigits 16 (n / 16)).length := by omega
    simp only [digits, List.length_append, List.length_singleton, width, List.append_assoc]

/-- The four digits of a unit. -/
theorem hex_four {n : Nat} (h : n < 0x10000) :
    Text.hex 4 n = [(n / 4096).digitChar, (n / 256 % 16).digitChar, (n / 16 % 16).digitChar,
      (n % 16).digitChar] := by
  have one : ∀ m < 16, Text.hex 1 m = [m.digitChar] := fun m hm => by
    simp [Text.hex, Nat.toDigits_of_lt_base hm]
  rw [hex_succ, hex_succ, hex_succ, one _ (by omega)]
  simp [Nat.div_div_eq_div_mul]

theorem hexDigit?_digitChar : ∀ n < 16, hexDigit? n.digitChar = some n := by decide

/-- The escape of a unit has four digits that are read as the unit. -/
theorem exists_unitEscape_eq {n : Nat} (h : n < 0x10000) :
    ∃ x y z w, unitEscape n = [Text.backslash, 'u', x, y, z, w] ∧ unit? x y z w = some n := by
  refine ⟨_, _, _, _, congrArg (fun digits => Text.backslash :: 'u' :: digits) (hex_four h), ?_⟩
  simp only [unit?, hexDigit?_digitChar _ (show n / 4096 < 16 by omega),
    hexDigit?_digitChar _ (Nat.mod_lt _ (show 0 < 16 by decide)), bind, Option.bind, pure]
  congr 1
  omega

section Text

variable {opening : Nat} {acc rest : List Char} {c : Char}

theorem readText_doubleQuote :
    readText opening acc (Text.doubleQuote :: rest) = .ok (String.ofList acc.reverse, rest) := by
  rw [readText.eq_def]
  exact if_pos rfl

theorem readText_plain (hquote : c ≠ Text.doubleQuote) (hback : c ≠ Text.backslash)
    (hplain : 32 ≤ c.toNat) :
    readText opening acc (c :: rest) = readText opening (c :: acc) rest := by
  rw [readText.eq_def]
  simp only [hquote, hback, if_false, Nat.not_lt.mpr hplain]

theorem readText_shortEscape {e : Char} (hu : e ≠ 'u') (h : shortEscape? e = some c) :
    readText opening acc (Text.backslash :: e :: rest) = readText opening (c :: acc) rest := by
  rw [readText.eq_def]
  have differ : Text.backslash ≠ Text.doubleQuote := by decide
  simp only [differ, if_false, if_true]
  split
  · rename_i heq
    cases heq
  · rename_i heq
    exact absurd (List.cons.inj heq).1 hu
  · rename_i heq
    exact absurd (List.cons.inj heq).1 hu
  · rename_i heq
    obtain ⟨rfl, rfl⟩ := List.cons.inj heq
    rw [h]

theorem readText_unitEscape {n : Nat} (h : n < 0x10000) (hpair : n < 0xD800 ∨ 0xE000 ≤ n)
    (hrest : rest ≠ []) :
    readText opening acc (unitEscape n ++ rest) = readText opening (Char.ofNat n :: acc) rest := by
  obtain ⟨x, y, z, w, hescape, unit⟩ := exists_unitEscape_eq h
  have char : unitChar n = Char.ofNat n := if_neg (by omega)
  have differ : Text.backslash ≠ Text.doubleQuote := by decide
  rw [hescape, readText.eq_def]
  simp only [List.cons_append, List.nil_append, differ, if_false, if_true]
  split
  · exact absurd rfl hrest
  · simp only [unit, char]
    rw [if_neg (by omega)]
  · simp only [unit, char]

/-- A character outside the basic plane is read from the escapes of both halves of a pair. -/
theorem readText_pair {high low : Nat} (hhigh : 0xD800 ≤ high ∧ high < 0xDC00)
    (hlow : 0xDC00 ≤ low ∧ low < 0xE000) (hrest : rest ≠ []) :
    readText opening acc (unitEscape high ++ (unitEscape low ++ rest))
      = readText opening (pairChar high low :: acc) rest := by
  obtain ⟨x, y, z, w, hescape, unit⟩ := exists_unitEscape_eq (n := high) (by omega)
  obtain ⟨x', y', z', w', hescape', unit'⟩ := exists_unitEscape_eq (n := low) (by omega)
  have differ : Text.backslash ≠ Text.doubleQuote := by decide
  have second : lowUnit? Text.backslash 'u' x' y' z' w' = some low := by
    rw [lowUnit?, if_pos ⟨rfl, rfl⟩, unit']
    exact if_pos hlow
  obtain ⟨a, after, rfl⟩ := List.exists_cons_of_ne_nil hrest
  rw [hescape, hescape', readText.eq_def]
  simp only [List.cons_append, List.nil_append, differ, if_false, if_true, unit, if_pos hhigh,
    second]

theorem readText_writeChar (style : Style) (c : Char) (hrest : rest ≠ []) :
    readText opening acc (writeChar style c ++ rest) = readText opening (c :: acc) rest := by
  have valid : c.toNat < 0xD800 ∨ 0xDFFF < c.toNat ∧ c.toNat < 0x110000 := c.valid
  have control (n : Nat) (h : c.toNat = n) : Char.ofNat n = c := by rw [← h, Char.ofNat_toNat]
  simp only [writeChar]
  split_ifs with special line carriage tab back feed low plain basic
  · rcases special with rfl | rfl <;> exact readText_shortEscape (by decide) rfl
  · exact readText_shortEscape (by decide) (congrArg some (control _ line))
  · exact readText_shortEscape (by decide) (congrArg some (control _ carriage))
  · exact readText_shortEscape (by decide) (congrArg some (control _ tab))
  · exact readText_shortEscape (by decide) (congrArg some (control _ back))
  · exact readText_shortEscape (by decide) (congrArg some (control _ feed))
  · rw [readText_unitEscape (by omega) (by omega) hrest, Char.ofNat_toNat]
  · exact readText_plain (fun h => special (.inl h)) (fun h => special (.inr h)) (by omega)
  · rw [readText_unitEscape basic (by omega) hrest, Char.ofNat_toNat]
  · rw [List.append_assoc, readText_pair (by omega) (by omega) hrest, pairChar,
      control _ (by omega)]

/-- The characters of a text up to its closing quote. -/
theorem readText_flatMap (style : Style) (cs : List Char) :
    readText opening acc (cs.flatMap (writeChar style) ++ Text.doubleQuote :: rest)
      = .ok (String.ofList (acc.reverse ++ cs), rest) := by
  induction cs generalizing acc with
  | nil => rw [List.flatMap_nil, List.nil_append, readText_doubleQuote, List.append_nil]
  | cons c cs ih =>
    rw [List.flatMap_cons, List.append_assoc, readText_writeChar style c (by simp), ih]
    simp

/-- A text is read back up to its closing quote. -/
theorem readText_toList (style : Style) (s : String) (opening : Nat) (rest : List Char) :
    readText opening [] (s.toList.flatMap (writeChar style) ++ Text.doubleQuote :: rest)
      = .ok (s, rest) := by
  rw [readText_flatMap, List.reverse_nil, List.nil_append, String.ofList_toList]

end Text

/-! ## Integers -/

/-- What may follow a number that ends. -/
def EndsNumber (rest : List Char) : Prop :=
  ∀ c ∈ rest.head?, c.isDigit = false ∧ c ≠ '.' ∧ c ≠ 'e' ∧ c ≠ 'E'

section Integers

variable {rest : List Char}

theorem EndsNumber.fraction? (h : EndsNumber rest) : fraction? rest = none := by
  cases rest with
  | nil => rfl
  | cons c rest =>
    obtain ⟨-, hpoint, -⟩ := h c rfl
    unfold Json.fraction?
    split
    · rename_i heq
      exact absurd (List.cons.inj heq).1 hpoint
    · rfl

theorem EndsNumber.exponent? (h : EndsNumber rest) : exponent? rest = none := by
  cases rest with
  | nil => rfl
  | cons c rest =>
    obtain ⟨-, -, hlower, hupper⟩ := h c rfl
    exact if_neg (by simp [hlower, hupper])

theorem takeWhile_digits {ds : List Char} (hds : ∀ c ∈ ds, c.isDigit = true)
    (h : EndsNumber rest) : (ds ++ rest).takeWhile Char.isDigit = ds ∧
      (ds ++ rest).dropWhile Char.isDigit = rest := by
  rw [List.takeWhile_append_of_pos hds, List.dropWhile_append_of_pos hds]
  cases rest with
  | nil => simp
  | cons c rest => simp [(h c rfl).1]

theorem digitsValue_eq_ofDigitChars (ds : List Char) :
    digitsValue ds = Nat.ofDigitChars 10 ds 0 := by
  rw [digitsValue, Nat.ofDigitChars_eq_foldl]
  simp only [Nat.mul_comm]
  rfl

/-- A positive number is written without a zero in front. -/
theorem exists_toDigits_eq {n : Nat} (h : 0 < n) :
    ∃ d ds, Nat.toDigits 10 n = d :: ds ∧ d ≠ '0' := by
  induction n using Nat.strongRecOn with
  | ind n ih =>
    by_cases hn : n < 10
    · exact ⟨_, [], Nat.toDigits_of_lt_base hn, by simp; omega⟩
    · obtain ⟨d, ds, hds, hd⟩ := ih (n / 10) (by omega) (by omega)
      refine ⟨d, ds ++ Nat.toDigits 10 (n % 10), ?_, hd⟩
      rw [← List.cons_append, ← hds, Nat.toDigits_append_toDigits (by decide) (by omega) (by omega),
        Nat.div_add_mod]

theorem readNumber_toDigits {n : Nat} (short : n < 10 ^ maxIntegerDigits) (h : EndsNumber rest)
    (negative : Bool) (start : List Char) :
    readNumber negative (Nat.toDigits 10 n) start rest
      = .ok (.int (if negative then -n else n), rest) := by
  have few : (Nat.toDigits 10 n).length ≤ maxIntegerDigits :=
    (Nat.length_toDigits_le_iff (by decide) (by decide)).mpr short
  simp [readNumber, h.fraction?, h.exponent?, Nat.not_lt.mpr few, digitsValue_eq_ofDigitChars,
    Nat.ofDigitChars_ten_toDigits]

theorem readUnsigned_toDigits {n : Nat} (short : n < 10 ^ maxIntegerDigits) (h : EndsNumber rest)
    (negative : Bool) (start : List Char) :
    readUnsigned negative start (Nat.toDigits 10 n ++ rest)
      = .ok (.int (if negative then -n else n), rest) := by
  rcases Nat.eq_zero_or_pos n with rfl | hn
  · exact readNumber_toDigits short h negative start
  · obtain ⟨d, ds, hds, hd⟩ := exists_toDigits_eq hn
    obtain ⟨htake, hdrop⟩ :=
      takeWhile_digits (fun c hc => Number.isDigit_of_mem_toDigits (n := n) hc) h
    rw [← readNumber_toDigits short h negative start]
    unfold readUnsigned
    split
    · rename_i heq
      rw [hds] at heq
      exact absurd (List.cons.inj heq).1 hd
    · rw [htake, hdrop, hds]

theorem afterWord?_of_ne (word : String) {w c : Char} {ws cs : List Char}
    (hword : word.toList = w :: ws) (h : w ≠ c) : afterWord? word (c :: cs) = none := by
  rw [afterWord?, hword, List.isPrefixOf, beq_eq_false_iff_ne.mpr h]
  rfl

/-- What begins like no word is a number. -/
theorem readScalar_of_notMem {c : Char} {cs : List Char} (h : c ∉ ['n', 't', 'f', 'N', 'I'])
    (hinfinity : afterWord? "-Infinity" (c :: cs) = none) :
    readScalar (c :: cs) =
      if c = '-' then readUnsigned true (c :: cs) cs
      else readUnsigned false (c :: cs) (c :: cs) := by
  have differs (w : Char) (hw : w ∈ ['n', 't', 'f', 'N', 'I']) : w ≠ c := fun heq => h (heq ▸ hw)
  rw [readScalar.eq_def, afterWord?_of_ne "null" rfl (differs 'n' (by simp)),
    afterWord?_of_ne "true" rfl (differs 't' (by simp)),
    afterWord?_of_ne "false" rfl (differs 'f' (by simp)),
    afterWord?_of_ne "NaN" rfl (differs 'N' (by simp)),
    afterWord?_of_ne "Infinity" rfl (differs 'I' (by simp)), hinfinity]
  split_ifs with hc
  · subst hc
    rfl
  · dsimp only
    split
    · rename_i heq
      exact absurd (List.cons.inj heq).1 hc
    · rfl

/-- An integer that is not too long is read from its digits. -/
theorem readScalar_toString {i : Int} (short : i.natAbs < 10 ^ maxIntegerDigits)
    (h : EndsNumber rest) : readScalar ((toString i).toList ++ rest) = .ok (.int i, rest) := by
  obtain ⟨d, ds, hds⟩ := List.exists_cons_of_ne_nil (Nat.toDigits_ne_nil (b := 10) (n := i.natAbs))
  have digit : d.isDigit = true := Number.isDigit_of_mem_toDigits (hds ▸ List.mem_cons_self)
  have differs (c : Char) (hc : c.isDigit = false) : d ≠ c :=
    fun heq => by simp [← heq, digit] at hc
  have number := fun negative => readUnsigned_toDigits short h negative
  rw [hds] at number
  rw [Number.toList_toString, hds]
  by_cases hi : i < 0
  · have value : -(i.natAbs : Int) = i := by omega
    have infinity : afterWord? "-Infinity" ('-' :: d :: (ds ++ rest)) = none := by
      simp [afterWord?, List.isPrefixOf, (differs 'I' (by decide)).symm]
    rw [if_pos hi]
    refine (readScalar_of_notMem (by simp) infinity).trans ((if_pos rfl).trans ?_)
    exact (number true _).trans (by rw [if_pos rfl, value])
  · have value : (i.natAbs : Int) = i := by omega
    have word : d ∉ ['n', 't', 'f', 'N', 'I'] := fun hd => by
      simp only [List.mem_cons, List.not_mem_nil, or_false] at hd
      rcases hd with rfl | rfl | rfl | rfl | rfl <;> exact absurd digit (by decide)
    have infinity : afterWord? "-Infinity" (d :: (ds ++ rest)) = none :=
      afterWord?_of_ne _ rfl (differs '-' (by decide)).symm
    rw [if_neg hi]
    refine (readScalar_of_notMem word infinity).trans ((if_neg (differs '-' (by decide))).trans ?_)
    exact (number false _).trans (by rw [if_neg (by decide), value])

end Integers

end Json

end CrmAutomation
