import CrmAutomation.Http.Url
import Mathlib.Data.List.Basic

/-!
# The segments of a path

A path is split at its slashes and the escapes of each segment are undone: what a segment stands for
is a list of octets (`Url.segments`). To escape a text changes neither its slashes nor its octets
(`segments_escape`), so that the segments of a path can be read off the text it was made from.

How long a path is can be told from its segments (`spread`). A text that writes no escapes stands
for the octets it is written with, any other for fewer (`spread_segments_le`,
`spread_segments_lt`); and to remove dot segments makes a path shorter (`spread_removeDots_lt`).
Where two paths are equally long, then, nothing was removed and nothing was an escape.
-/

namespace CrmAutomation

/-! ## Texts and their bytes -/

theorem Bytes.ofText_ofList (cs : List Char) :
    Bytes.ofText (String.ofList cs) = cs.flatMap String.utf8EncodeChar := by
  simp [Bytes.ofText, String.toUTF8, List.utf8Encode]

theorem Bytes.ofText_toString (c : Char) : Bytes.ofText c.toString = String.utf8EncodeChar c := by
  have := Bytes.ofText_ofList [c]
  simpa using this

theorem Bytes.ofText_injective {s t : String} (h : Bytes.ofText s = Bytes.ofText t) : s = t := by
  refine String.toByteArray_inj.1 (ByteArray.ext (Array.toList_inj.1 ?_))
  exact h

theorem Bytes.ofText_eq (s : String) : Bytes.ofText s = s.toList.flatMap String.utf8EncodeChar := by
  rw [← Bytes.ofText_ofList, String.ofList_toList]

theorem Text.splitOn_eq (separator : Char) (s : String) :
    Text.splitOn separator s = (s.toList.splitOn separator).map String.ofList := by
  rw [Text.splitOn]
  congr 1
  induction s.toList with
  | nil => simp
  | cons c rest ih =>
    rw [List.foldr_cons, ih, List.splitOn_cons_eq_if_modifyHead]
    by_cases h : c = separator
    · simp [h]
    · rw [if_neg h, if_neg (by simpa using h)]
      cases hs : rest.splitOn separator with
      | nil => exact absurd hs (List.splitOn_ne_nil _ _)
      | cons p ps => rfl

/-- A separator begins a new part, and what has none goes before the first one. -/
theorem splitOn_append_of_notMem {separator : Char} {cs : List Char} (h : separator ∉ cs)
    (rest : List Char) :
    (cs ++ rest).splitOn separator = (rest.splitOn separator).modifyHead (cs ++ ·) := by
  induction cs with
  | nil => cases h : rest.splitOn separator <;> simp [h]
  | cons c cs ih =>
    obtain ⟨hc, hcs⟩ := List.ne_and_not_mem_of_not_mem_cons h
    rw [List.cons_append, List.splitOn_cons_eq_if_modifyHead, if_neg (by simpa using hc.symm),
      ih hcs, List.modifyHead_modifyHead]
    rfl

theorem notMem_of_mem_splitOn {separator : Char} {part : List Char} :
    ∀ {cs : List Char}, part ∈ cs.splitOn separator → separator ∉ part
  | [], h => by
    have : part = [] := by simpa using h
    simp [this]
  | c :: rest, h => by
    rw [List.splitOn_cons_eq_if_modifyHead] at h
    split at h
    · rcases List.mem_cons.1 h with rfl | h
      · simp
      · exact notMem_of_mem_splitOn h
    · rename_i hc
      cases hs : rest.splitOn separator with
      | nil => exact absurd hs (List.splitOn_ne_nil _ _)
      | cons p ps =>
        have ih (q : List Char) (hq : q ∈ p :: ps) : separator ∉ q :=
          notMem_of_mem_splitOn (hs ▸ hq)
        rw [hs, List.modifyHead_cons] at h
        rcases List.mem_cons.1 h with rfl | h
        · have hne : separator ≠ c := fun he => hc (by simp [he])
          exact List.not_mem_cons_of_ne_of_not_mem hne (ih p List.mem_cons_self)
        · exact ih part (List.mem_cons_of_mem _ h)

theorem Text.splitOn_append_slash (before after : String) :
    Text.splitOn '/' (before ++ "/" ++ after)
      = Text.splitOn '/' before ++ Text.splitOn '/' after := by
  have hslash : (before ++ "/" ++ after).toList = before.toList ++ '/' :: after.toList := by simp
  simp only [Text.splitOn_eq, hslash, List.splitOn_append_cons_self, List.map_append]

theorem Text.splitOn_intercalate {parts : List String} (hne : parts ≠ [])
    (h : ∀ part ∈ parts, '/' ∉ part.toList) :
    Text.splitOn '/' (String.intercalate "/" parts) = parts := by
  rw [Text.splitOn_eq, String.toList_intercalate]
  have hslash : "/".toList = ['/'] := rfl
  rw [hslash, List.splitOn_intercalate]
  · simp
  · simpa using h
  · simpa using hne

namespace Url

/-! ## Escapes -/

/-- The characters that escapes are made of stand for themselves. -/
structure KeepsEscapes (safe : Char → Bool) : Prop where
  percent : safe '%' = true
  digit : ∀ c, (hexValue? c).isSome → safe c = true

theorem escapeChar_of_safe {safe : Char → Bool} {c : Char} (h : safe c = true) :
    escapeChar safe c = [c] := by
  rw [escapeChar, if_pos h]

/-- What is escaped begins with a percent sign. -/
theorem exists_escapeChar_eq {safe : Char → Bool} {c : Char} (h : safe c = false) :
    ∃ rest, escapeChar safe c = '%' :: rest := by
  rw [escapeChar, if_neg (by simp [h]), Bytes.ofText_toString]
  cases hb : String.utf8EncodeChar c with
  | nil => exact absurd hb String.utf8EncodeChar_ne_nil
  | cons b bs => exact ⟨_, rfl⟩

theorem hexValue?_digit (n : Fin 16) :
    hexValue? (Char.ofNat (if n.val < 10 then 48 + n.val else 55 + n.val)) = some n.val := by
  revert n
  decide

theorem escapedByte?_of_ne {c : Char} (h : c ≠ '%') (rest : List Char) :
    escapedByte? c rest = none := by
  rw [escapedByte?]
  exact fun _ _ _ hc => absurd hc h

theorem escapedByte?_of_first {x : Char} (h : hexValue? x = none) (c : Char) (rest : List Char) :
    escapedByte? c (x :: rest) = none := by
  unfold escapedByte?
  split
  · rename_i he
    simp_all
  · rfl

theorem escapedByte?_of_second {y : Char} (h : hexValue? y = none) (c x : Char) (rest : List Char) :
    escapedByte? c (x :: y :: rest) = none := by
  unfold escapedByte?
  split
  · rename_i he
    cases hx : hexValue? x <;> simp_all
  · rfl

theorem escapedByte?_of_digits {x y : Char} {high low : Nat} (hx : hexValue? x = some high)
    (hy : hexValue? y = some low) (rest : List Char) :
    escapedByte? '%' (x :: y :: rest) = some (UInt8.ofNat (high * 16 + low)) := by
  unfold escapedByte?
  simp only [hx, hy]
  rfl

theorem escapedByte?_congr (c x y : Char) (rest rest' : List Char) :
    escapedByte? c (x :: y :: rest) = escapedByte? c (x :: y :: rest') := by
  by_cases hc : c = '%'
  · subst hc
    rfl
  · rw [escapedByte?_of_ne hc, escapedByte?_of_ne hc]

/-- An escape is a percent sign and two digits. -/
theorem exists_of_escapedByte? {c : Char} {rest : List Char} {b : UInt8}
    (h : escapedByte? c rest = some b) :
    ∃ x y more, c = '%' ∧ rest = x :: y :: more ∧ (hexValue? x).isSome ∧ (hexValue? y).isSome := by
  match rest with
  | [] =>
    unfold escapedByte? at h
    simp at h
  | [x] =>
    unfold escapedByte? at h
    simp at h
  | x :: y :: more =>
    refine ⟨x, y, more, ?_, rfl, ?_, ?_⟩
    · by_contra hc
      simp [escapedByte?_of_ne hc] at h
    · by_contra hx
      simp [escapedByte?_of_first (Option.not_isSome_iff_eq_none.1 hx)] at h
    · by_contra hy
      simp [escapedByte?_of_second (Option.not_isSome_iff_eq_none.1 hy)] at h

theorem unescapeFrom_of_escape {c : Char} {rest : List Char} {b : UInt8}
    (h : escapedByte? c rest = some b) : unescapeFrom 0 (c :: rest) = b :: unescapeFrom 2 rest := by
  rw [unescapeFrom, h]

theorem unescapeFrom_of_none {c : Char} {rest : List Char} (h : escapedByte? c rest = none) :
    unescapeFrom 0 (c :: rest) = String.utf8EncodeChar c ++ unescapeFrom 0 rest := by
  rw [unescapeFrom, h, Bytes.ofText_toString]

theorem unescapeFrom_escapeByte (b : UInt8) (rest : List Char) :
    unescapeFrom 0 (escapeByte b ++ rest) = b :: unescapeFrom 0 rest := by
  have hb : b.toNat < 256 := b.toNat_lt
  have high := hexValue?_digit ⟨b.toNat / 16, by omega⟩
  have low := hexValue?_digit ⟨b.toNat % 16, by omega⟩
  have whole : UInt8.ofNat (b.toNat / 16 * 16 + b.toNat % 16) = b := by
    rw [Nat.div_add_mod' b.toNat 16, UInt8.ofNat_toNat]
  refine unescapeFrom_of_escape ?_
  exact (escapedByte?_of_digits high low rest).trans (congrArg some whole)

theorem unescapeFrom_escapeBytes (bytes : Bytes) (rest : List Char) :
    unescapeFrom 0 (bytes.flatMap escapeByte ++ rest) = bytes ++ unescapeFrom 0 rest := by
  induction bytes with
  | nil => rfl
  | cons b bytes ih =>
    rw [List.flatMap_cons, List.append_assoc, unescapeFrom_escapeByte, ih, List.cons_append]

/-! ## To escape changes no octets -/

/-- Characters with what may not stand in a text being escaped. -/
def escapeChars (safe : Char → Bool) (cs : List Char) : List Char := cs.flatMap (escapeChar safe)

variable {safe : Char → Bool}

theorem KeepsEscapes.hexValue? (hs : KeepsEscapes safe) {c : Char} (h : safe c = false) :
    hexValue? c = none := by
  by_contra hc
  simp [hs.digit c (Option.isSome_iff_ne_none.2 hc)] at h

/-- Whether an escape begins with a character can be seen before or after escaping what follows. -/
theorem escapedByte?_escapeChars (hs : KeepsEscapes safe) (c : Char) (rest : List Char) :
    escapedByte? c (escapeChars safe rest) = escapedByte? c rest := by
  have mark : hexValue? '%' = none := by decide
  match rest with
  | [] => rfl
  | x :: rest =>
    rw [escapeChars, List.flatMap_cons]
    cases hx : safe x with
    | false =>
      obtain ⟨more, hmore⟩ := exists_escapeChar_eq hx
      rw [hmore, List.cons_append, escapedByte?_of_first mark,
        escapedByte?_of_first (hs.hexValue? hx)]
    | true =>
      rw [escapeChar_of_safe hx]
      match rest with
      | [] => rfl
      | y :: rest =>
        rw [List.flatMap_cons]
        cases hy : safe y with
        | false =>
          obtain ⟨more, hmore⟩ := exists_escapeChar_eq hy
          rw [hmore, List.cons_append, List.cons_append, List.nil_append,
            escapedByte?_of_second mark, escapedByte?_of_second (hs.hexValue? hy)]
        | true =>
          rw [escapeChar_of_safe hy]
          exact escapedByte?_congr c x y _ _

/-- The induction goes along the characters; those passed over are digits, which stand as they
are. -/
theorem unescapeFrom_escapeChars (hs : KeepsEscapes safe) :
    ∀ (n : Nat) (cs : List Char), (∀ c ∈ cs.take n, safe c = true) →
      unescapeFrom n (escapeChars safe cs) = unescapeFrom n cs
  | n, [], _ => by rw [escapeChars, List.flatMap_nil]
  | n + 1, c :: rest, h => by
    have hc : safe c = true := h c (by simp)
    rw [escapeChars, List.flatMap_cons, escapeChar_of_safe hc]
    exact unescapeFrom_escapeChars hs n rest fun d hd => h d (by simp [hd])
  | 0, c :: rest, _ => by
    have ih := unescapeFrom_escapeChars hs 0 rest (by simp)
    have split : escapeChars safe (c :: rest) = escapeChar safe c ++ escapeChars safe rest := rfl
    rw [split]
    cases hc : safe c with
    | false =>
      have hne : c ≠ '%' := fun he => by simp [he, hs.percent] at hc
      rw [unescapeFrom_of_none (escapedByte?_of_ne hne rest), escapeChar, if_neg (by simp [hc]),
        unescapeFrom_escapeBytes, Bytes.ofText_toString, ih]
    | true =>
      rw [escapeChar_of_safe hc, List.cons_append, List.nil_append]
      have same := escapedByte?_escapeChars hs c rest
      cases he : escapedByte? c rest with
      | none => rw [unescapeFrom_of_none he, unescapeFrom_of_none (same.trans he), ih]
      | some b =>
        obtain ⟨x, y, more, -, rfl, hx, hy⟩ := exists_of_escapedByte? he
        rw [unescapeFrom_of_escape he, unescapeFrom_of_escape (same.trans he),
          unescapeFrom_escapeChars hs 2 (x :: y :: more) (by
            simpa using ⟨hs.digit x hx, hs.digit y hy⟩)]

/-! ## Segments -/

/-- The octets that a text stands for, its escapes being undone. -/
def octets (s : String) : Bytes := unescapeFrom 0 s.toList

/-- What the segments of a path stand for. -/
def segments (path : String) : List Bytes := (Text.splitOn '/' path).map octets

theorem segments_eq (path : String) :
    segments path = (path.toList.splitOn '/').map (unescapeFrom 0) := by
  rw [segments, Text.splitOn_eq, List.map_map]
  exact List.map_congr_left fun s _ => by simp [octets]

theorem slash_notMem_escapeByte (b : UInt8) : '/' ∉ escapeByte b := by
  have hb : b.toNat < 256 := b.toNat_lt
  have none_of_slash {c : Char} (h : '/' = c) : hexValue? c = none := by
    subst h
    decide
  intro h
  rcases List.mem_cons.1 h with h | h
  · revert h
    decide
  rcases List.mem_pair.1 h with h | h
  · have := hexValue?_digit ⟨b.toNat / 16, by omega⟩
    simp [none_of_slash h] at this
  · have := hexValue?_digit ⟨b.toNat % 16, by omega⟩
    simp [none_of_slash h] at this

theorem slash_notMem_escapeChar {c : Char} (h : c ≠ '/') : '/' ∉ escapeChar safe c := by
  rw [escapeChar]
  split
  · simpa using h.symm
  · intro hmem
    obtain ⟨b, -, hb⟩ := List.mem_flatMap.1 hmem
    exact slash_notMem_escapeByte b hb

/-- A text that is escaped has its slashes where it had them before. -/
theorem splitOn_escapeChars (hs : safe '/' = true) (cs : List Char) :
    (escapeChars safe cs).splitOn '/' = (cs.splitOn '/').map (escapeChars safe) := by
  induction cs with
  | nil => rfl
  | cons c rest ih =>
    have split : escapeChars safe (c :: rest) = escapeChar safe c ++ escapeChars safe rest := rfl
    rw [split, List.splitOn_cons_eq_if_modifyHead]
    by_cases hc : c = '/'
    · subst hc
      rw [escapeChar_of_safe hs, List.cons_append, List.splitOn_cons_eq_if_modifyHead,
        List.nil_append, ih]
      simp [escapeChars]
    · rw [splitOn_append_of_notMem (slash_notMem_escapeChar hc), ih, if_neg (by simpa using hc)]
      cases rest.splitOn '/' <;> rfl

theorem segments_escape (hs : KeepsEscapes safe) (hslash : safe '/' = true) (path : String) :
    segments (escape safe path) = segments path := by
  rw [segments_eq, segments_eq, escape, String.toList_ofList]
  change List.map _ ((escapeChars safe path.toList).splitOn '/') = _
  rw [splitOn_escapeChars hslash, List.map_map]
  exact List.map_congr_left fun part _ => unescapeFrom_escapeChars hs 0 part (by simp)

/-! ## Escapes that are undone -/

/-- Whether an escape begins with one of the characters. -/
def writesEscape : List Char → Bool
  | [] => false
  | c :: rest => (escapedByte? c rest).isSome || writesEscape rest

theorem unescapeFrom_of_writesEscape {cs : List Char} (h : writesEscape cs = false) :
    unescapeFrom 0 cs = cs.flatMap String.utf8EncodeChar := by
  induction cs with
  | nil => rfl
  | cons c rest ih =>
    obtain ⟨hc, hrest⟩ := Bool.or_eq_false_iff.1 h
    rw [unescapeFrom_of_none (Option.not_isSome_iff_eq_none.1 (by simp [hc])), ih hrest,
      List.flatMap_cons]

theorem length_utf8EncodeChar_pos (c : Char) : 0 < (String.utf8EncodeChar c).length :=
  List.length_pos_iff.2 String.utf8EncodeChar_ne_nil

/-- What characters stand for is no longer than what they are written with. -/
theorem length_unescapeFrom_le : ∀ (n : Nat) (cs : List Char),
    (unescapeFrom n cs).length ≤ ((cs.drop n).flatMap String.utf8EncodeChar).length
  | n, [] => by simp [unescapeFrom]
  | n + 1, _ :: rest => length_unescapeFrom_le n rest
  | 0, c :: rest => by
    have hc := length_utf8EncodeChar_pos c
    cases he : escapedByte? c rest with
    | none =>
      have ih := length_unescapeFrom_le 0 rest
      rw [List.drop_zero] at ih
      rw [unescapeFrom_of_none he, List.drop_zero, List.flatMap_cons, List.length_append,
        List.length_append]
      omega
    | some b =>
      obtain ⟨x, y, more, -, rfl, -, -⟩ := exists_of_escapedByte? he
      have ih := length_unescapeFrom_le 2 (x :: y :: more)
      rw [List.drop_succ_cons, List.drop_succ_cons, List.drop_zero] at ih
      rw [unescapeFrom_of_escape he, List.length_cons, List.drop_zero]
      simp only [List.flatMap_cons, List.length_append]
      omega

theorem length_unescapeFrom_lt {cs : List Char} (h : writesEscape cs = true) :
    (unescapeFrom 0 cs).length < (cs.flatMap String.utf8EncodeChar).length := by
  induction cs with
  | nil => cases h
  | cons c rest ih =>
    have hc := length_utf8EncodeChar_pos c
    cases he : escapedByte? c rest with
    | none =>
      have hrest : writesEscape rest = true := by simpa [writesEscape, he] using h
      rw [unescapeFrom_of_none he, List.flatMap_cons, List.length_append, List.length_append]
      exact Nat.add_lt_add_left (ih hrest) _
    | some b =>
      obtain ⟨x, y, more, -, rfl, -, -⟩ := exists_of_escapedByte? he
      have hle := length_unescapeFrom_le 2 (x :: y :: more)
      rw [List.drop_succ_cons, List.drop_succ_cons, List.drop_zero] at hle
      have hx := length_utf8EncodeChar_pos x
      rw [unescapeFrom_of_escape he, List.length_cons]
      simp only [List.flatMap_cons, List.length_append]
      omega

/-! ## How long a path is -/

/-- The length of a path that has these segments, each with a slash before it. -/
def spread : List Bytes → Nat
  | [] => 0
  | part :: parts => part.length + 1 + spread parts

@[simp] theorem spread_nil : spread [] = 0 := rfl

@[simp] theorem spread_cons (part : Bytes) (parts : List Bytes) :
    spread (part :: parts) = part.length + 1 + spread parts := rfl

@[simp] theorem spread_append (parts parts' : List Bytes) :
    spread (parts ++ parts') = spread parts + spread parts' := by
  induction parts with
  | nil => simp
  | cons part parts ih => simp [ih, Nat.add_assoc]

@[simp] theorem spread_reverse (parts : List Bytes) : spread parts.reverse = spread parts := by
  induction parts with
  | nil => rfl
  | cons part parts ih => simp [ih, Nat.add_comm]

/-- To split a text takes nothing from it. -/
theorem spread_splitOn (cs : List Char) :
    spread ((cs.splitOn '/').map fun part => part.flatMap String.utf8EncodeChar)
      = (cs.flatMap String.utf8EncodeChar).length + 1 := by
  induction cs with
  | nil => simp
  | cons c rest ih =>
    rw [List.splitOn_cons_eq_if_modifyHead, List.flatMap_cons, List.length_append]
    split
    · rename_i hc
      have hslash : String.utf8EncodeChar '/' = [47] := by decide
      rw [List.map_cons, spread_cons, ih, (beq_iff_eq.1 hc), hslash]
      simp
      omega
    · cases hs : rest.splitOn '/' with
      | nil => exact absurd hs (List.splitOn_ne_nil _ _)
      | cons p ps =>
        rw [hs, List.map_cons, spread_cons] at ih
        rw [List.modifyHead_cons, List.map_cons, spread_cons, List.flatMap_cons, List.length_append]
        omega

theorem spread_map_le {α : Type} {f g : α → Bytes} {l : List α}
    (h : ∀ part ∈ l, (f part).length ≤ (g part).length) : spread (l.map f) ≤ spread (l.map g) := by
  induction l with
  | nil => simp
  | cons part rest ih =>
    have hpart := h part List.mem_cons_self
    have hrest := ih fun p hp => h p (List.mem_cons_of_mem _ hp)
    simp only [List.map_cons, spread_cons]
    omega

theorem spread_map_lt {α : Type} {f g : α → Bytes} {l : List α}
    (h : ∀ part ∈ l, (f part).length ≤ (g part).length) {one : α} (hone : one ∈ l)
    (hlt : (f one).length < (g one).length) : spread (l.map f) < spread (l.map g) := by
  obtain ⟨before, after, rfl⟩ := List.append_of_mem hone
  have hbefore := spread_map_le (f := f) (g := g) (l := before) fun p hp =>
    h p (List.mem_append_left _ hp)
  have hafter := spread_map_le (f := f) (g := g) (l := after) fun p hp =>
    h p (List.mem_append_right _ (List.mem_cons_of_mem _ hp))
  simp only [List.map_append, List.map_cons, spread_append, spread_cons]
  omega

theorem spread_segments_le (path : String) :
    spread (segments path) ≤ (Bytes.ofText path).length + 1 := by
  rw [segments_eq, Bytes.ofText_eq, ← spread_splitOn]
  exact spread_map_le fun part _ => length_unescapeFrom_le 0 part

/-- A path that writes an escape is shorter than its text. -/
theorem spread_segments_lt {path : String} {part : List Char}
    (hpart : part ∈ path.toList.splitOn '/') (h : writesEscape part = true) :
    spread (segments path) < (Bytes.ofText path).length + 1 := by
  rw [segments_eq, Bytes.ofText_eq, ← spread_splitOn]
  exact spread_map_lt (fun part _ => length_unescapeFrom_le 0 part) hpart (length_unescapeFrom_lt h)

/-! ## Dot segments -/

/-- Whether a segment stands for no part of a path. -/
def IsDots (segment : String) : Prop := segment = "." ∨ segment = ".."

instance (segment : String) : Decidable (IsDots segment) := inferInstanceAs (Decidable (_ ∨ _))

theorem removeDots_of_forall {path : String}
    (h : ∀ segment ∈ Text.splitOn '/' path, ¬ IsDots segment) : removeDots path = path := by
  rw [removeDots]
  refine if_neg ?_
  simpa [IsDots] using h

theorem mem_of_mem_pushSegment {output : List String} {segment s : String}
    (h : s ∈ pushSegment output segment) : s ∈ output ∨ s = segment := by
  unfold pushSegment at h
  split at h
  · exact .inl h
  · split at h
    · split at h
      · exact .inl h
      · exact .inl h
      · exact .inl (List.mem_cons_of_mem _ h)
    · rcases List.mem_cons.1 h with h | h
      · exact .inr h
      · exact .inl h

theorem mem_of_mem_foldl_pushSegment {s : String} :
    ∀ {segments output : List String}, s ∈ segments.foldl pushSegment output →
      s ∈ output ∨ s ∈ segments
  | [], _, h => .inl h
  | segment :: rest, output, h => by
    rw [List.foldl_cons] at h
    rcases mem_of_mem_foldl_pushSegment h with h | h
    · rcases mem_of_mem_pushSegment h with h | rfl
      · exact .inl h
      · exact .inr List.mem_cons_self
    · exact .inr (List.mem_cons_of_mem _ h)

/-- A dot segment adds nothing to a path. -/
theorem spread_pushSegment_of_isDots {segment : String} (h : IsDots segment)
    (output : List String) :
    spread ((pushSegment output segment).map octets) ≤ spread (output.map octets) := by
  unfold pushSegment
  split
  · exact Nat.le_refl _
  · rw [if_pos (h.resolve_left ‹_›)]
    split
    · exact Nat.le_refl _
    · exact Nat.le_refl _
    · simp

theorem spread_pushSegment_of_not {segment : String} (h : ¬ IsDots segment)
    (output : List String) :
    spread ((pushSegment output segment).map octets)
      = (octets segment).length + 1 + spread (output.map octets) := by
  obtain ⟨hone, htwo⟩ := not_or.1 h
  unfold pushSegment
  rw [if_neg hone, if_neg htwo, List.map_cons, spread_cons]

theorem spread_foldl_pushSegment_le (segments : List String) :
    ∀ output : List String, spread ((segments.foldl pushSegment output).map octets)
      ≤ spread (output.map octets) + spread (segments.map octets) := by
  induction segments with
  | nil => intro output; simp
  | cons segment rest ih =>
    intro output
    have hrest := ih (pushSegment output segment)
    rw [List.foldl_cons, List.map_cons, spread_cons]
    by_cases hd : IsDots segment
    · have := spread_pushSegment_of_isDots hd output
      omega
    · have := spread_pushSegment_of_not hd output
      omega

theorem spread_foldl_pushSegment_lt {segment : String} (hd : IsDots segment)
    {segments : List String} (hmem : segment ∈ segments) (output : List String) :
    spread ((segments.foldl pushSegment output).map octets)
      < spread (output.map octets) + spread (segments.map octets) := by
  obtain ⟨before, after, rfl⟩ := List.append_of_mem hmem
  have hbefore := spread_foldl_pushSegment_le before output
  have hdots := spread_pushSegment_of_isDots hd (before.foldl pushSegment output)
  have hafter := spread_foldl_pushSegment_le after
    (pushSegment (before.foldl pushSegment output) segment)
  rw [List.foldl_append, List.foldl_cons, List.map_append, List.map_cons, spread_append,
    spread_cons]
  omega

theorem slash_notMem_of_mem_splitOn {path segment : String}
    (h : segment ∈ Text.splitOn '/' path) : '/' ∉ segment.toList := by
  rw [Text.splitOn_eq] at h
  obtain ⟨part, hpart, rfl⟩ := List.mem_map.1 h
  simpa using notMem_of_mem_splitOn hpart

/-- The segments that are left where dot segments were removed. -/
theorem splitOn_foldl_pushSegment (path : String) :
    Text.splitOn '/' (String.intercalate "/" ((Text.splitOn '/' path).foldl pushSegment []).reverse)
      = if (Text.splitOn '/' path).foldl pushSegment [] = [] then [""]
        else ((Text.splitOn '/' path).foldl pushSegment []).reverse := by
  split
  · rename_i h
    rw [h]
    rfl
  · rename_i h
    refine Text.splitOn_intercalate (by simpa using h) fun part hpart => ?_
    rcases mem_of_mem_foldl_pushSegment (List.mem_reverse.1 hpart) with hmem | hmem
    · cases hmem
    · exact slash_notMem_of_mem_splitOn hmem

/-- To remove dot segments makes a path shorter than it was written. -/
theorem spread_removeDots_lt {path segment : String} (hmem : segment ∈ Text.splitOn '/' path)
    (hd : IsDots segment) : spread (segments (removeDots path)) < spread (segments path) := by
  have hany : (Text.splitOn '/' path).any (fun s => s = "." || s = "..") = true :=
    List.any_eq_true.2 ⟨segment, hmem, by simpa [IsDots] using hd⟩
  have hlt := spread_foldl_pushSegment_lt hd hmem []
  simp only [List.map_nil, spread_nil, Nat.zero_add] at hlt
  rw [removeDots, if_pos hany, segments, splitOn_foldl_pushSegment]
  split
  · have hdots : 0 < (octets segment).length := by
      rcases hd with rfl | rfl <;> decide
    have hone : spread ([""].map octets) = 1 := rfl
    obtain ⟨before, after, hsplit⟩ := List.append_of_mem hmem
    rw [hone, segments, hsplit]
    simp only [List.map_append, List.map_cons, spread_append, spread_cons]
    omega
  · rw [List.map_reverse, spread_reverse]
    exact hlt

end Url

end CrmAutomation
