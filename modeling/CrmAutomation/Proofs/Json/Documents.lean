import CrmAutomation.Json.Document
import CrmAutomation.Proofs.Http.Segments
import CrmAutomation.Proofs.Json.RoundTrip

/-!
# Documents in bytes read back

A document in a style that escapes what is not ASCII is made of ASCII characters, none of them zero
(`isPlain_of_mem_write`). So its bytes are found to be in UTF-8, they are read as the document
(`Bytes.decode_ofText`), and the value is read back from them (`readBytes_write`).
-/

namespace CrmAutomation

/-- An ASCII character that is not zero. -/
def Bytes.IsPlain (c : Char) : Prop := 0 < c.toNat ∧ c.toNat < 128

instance : DecidablePred Bytes.IsPlain := fun c =>
  inferInstanceAs (Decidable (0 < c.toNat ∧ c.toNat < 128))

namespace Json

open Bytes Value

/-! ## What documents are written with -/

section Plain

variable {style : Style} {c d : Char}

theorem forall_isPlain {cs : List Char} (h : cs.all (fun c => decide (IsPlain c)) = true) :
    ∀ c ∈ cs, IsPlain c := fun c hc => of_decide_eq_true (List.all_eq_true.mp h c hc)

theorem isPlain_of_isWritten (h : Number.IsWritten c) : IsPlain c := by
  rcases h with h | rfl
  · simp only [Char.isDigit, Bool.and_eq_true, decide_eq_true_eq] at h
    have low : 48 ≤ c.toNat := h.1
    have high : c.toNat ≤ 57 := h.2
    exact ⟨by omega, by omega⟩
  · exact ⟨by decide, by decide⟩

theorem isPlain_of_isSpace (h : isSpace c = true) : IsPlain c := by
  simp only [isSpace, Bool.or_eq_true, beq_iff_eq] at h
  exact ⟨by omega, by omega⟩

theorem isPlain_of_mem_unitEscape {n : Nat} (h : n < 0x10000) (hd : d ∈ unitEscape n) :
    IsPlain d := by
  have digit : ∀ m < 16, IsPlain m.digitChar := by decide
  rw [unitEscape, hex_four h] at hd
  simp only [List.mem_cons, List.not_mem_nil, or_false] at hd
  rcases hd with rfl | rfl | rfl | rfl | rfl | rfl
  · decide
  · decide
  all_goals exact digit _ (by omega)

theorem isPlain_of_mem_writeChar (hs : style.ascii = true) (hd : d ∈ writeChar style c) :
    IsPlain d := by
  have valid : c.toNat < 0xD800 ∨ 0xDFFF < c.toNat ∧ c.toNat < 0x110000 := c.valid
  have short (e : Char) (he : IsPlain e) (hd : d ∈ [Text.backslash, e]) : IsPlain d := by
    rcases List.mem_pair.mp hd with rfl | rfl
    · decide
    · exact he
  simp only [writeChar, hs] at hd
  split_ifs at hd with special _ _ _ _ _ low plain basic
  · exact short c (by rcases special with rfl | rfl <;> decide) hd
  · exact short 'n' (by decide) hd
  · exact short 'r' (by decide) hd
  · exact short 't' (by decide) hd
  · exact short 'b' (by decide) hd
  · exact short 'f' (by decide) hd
  · exact isPlain_of_mem_unitEscape (by omega) hd
  · simp only [Bool.not_true, Bool.false_eq_true, or_false] at plain
    rw [List.mem_singleton.mp hd]
    exact ⟨by omega, by omega⟩
  · exact isPlain_of_mem_unitEscape basic hd
  · rcases List.mem_append.mp hd with hd | hd
    · exact isPlain_of_mem_unitEscape (by omega) hd
    · exact isPlain_of_mem_unitEscape (by omega) hd

theorem isPlain_of_mem_writeText (hs : style.ascii = true) {s : String}
    (hd : d ∈ (writeText style s).toList) : IsPlain d := by
  rw [toList_writeText, List.mem_cons, List.mem_append, List.mem_flatMap, List.mem_singleton] at hd
  rcases hd with rfl | ⟨c, -, hd⟩ | rfl
  · decide
  · exact isPlain_of_mem_writeChar hs hd
  · decide

theorem isPlain_of_mem_separator {separator : String} {c : Char} (hc : IsPlain c)
    (h : ∃ blanks, separator.toList = c :: blanks ∧ ∀ b ∈ blanks, isSpace b = true)
    (hd : d ∈ separator.toList) : IsPlain d := by
  obtain ⟨blanks, hblanks, space⟩ := h
  rw [hblanks] at hd
  rcases List.mem_cons.mp hd with rfl | hd
  · exact hc
  · exact isPlain_of_isSpace (space d hd)

theorem isPlain_of_mem_writeItems (hs : style.IsSeparating) :
    ∀ {vs : List Value}, (∀ v ∈ vs, ∀ d ∈ (write style v).toList, IsPlain d) →
      ∀ d ∈ (writeItems style vs).toList, IsPlain d
  | [], _, d, hd => by cases hd
  | [v], h, d, hd => h v List.mem_cons_self d hd
  | v :: w :: rest, h, d, hd => by
    simp only [writeItems, String.toList_append, List.mem_append] at hd
    rcases hd with (hd | hd) | hd
    · exact h v List.mem_cons_self d hd
    · exact isPlain_of_mem_separator (by decide) hs.item hd
    · exact isPlain_of_mem_writeItems hs (fun x hx => h x (List.mem_cons_of_mem v hx)) d hd

theorem isPlain_of_mem_writeMembers (hs : style.IsSeparating) (hascii : style.ascii = true) :
    ∀ {ms : Members}, (∀ p ∈ ms, ∀ d ∈ (write style p.2).toList, IsPlain d) →
      ∀ d ∈ (writeMembers style ms).toList, IsPlain d
  | [], _, d, hd => by cases hd
  | [(k, v)], h, d, hd => by
    simp only [writeMembers, String.toList_append, List.mem_append] at hd
    rcases hd with (hd | hd) | hd
    · exact isPlain_of_mem_writeText hascii hd
    · exact isPlain_of_mem_separator (by decide) hs.key hd
    · exact h (k, v) List.mem_cons_self d hd
  | (k, v) :: q :: rest, h, d, hd => by
    simp only [writeMembers, String.toList_append, List.mem_append] at hd
    rcases hd with (((hd | hd) | hd) | hd) | hd
    · exact isPlain_of_mem_writeText hascii hd
    · exact isPlain_of_mem_separator (by decide) hs.key hd
    · exact h (k, v) List.mem_cons_self d hd
    · exact isPlain_of_mem_separator (by decide) hs.item hd
    · exact isPlain_of_mem_writeMembers hs hascii
        (fun x hx => h x (List.mem_cons_of_mem (k, v) hx)) d hd

/-- A document in a style that escapes what is not ASCII is written with ASCII. -/
theorem isPlain_of_mem_write (hs : style.IsSeparating) (hascii : style.ascii = true) {v : Value}
    (exact : v.IsExact) : ∀ d ∈ (write style v).toList, IsPlain d := by
  induction v using induction_on_parts with
  | scalar v h =>
    cases v with
    | null =>
      rw [write]
      exact forall_isPlain (by decide)
    | bool b =>
      rw [write]
      cases b <;> exact forall_isPlain (by decide)
    | int i =>
      rw [write]
      exact fun d hd => isPlain_of_isWritten (Number.isWritten_of_mem hd)
    | float _ => exact exact.elim
    | str s =>
      rw [write]
      exact fun d hd => isPlain_of_mem_writeText hascii hd
    | list vs => cases h
    | obj ms => cases h
  | list vs ih =>
    have items := isPlain_of_mem_writeItems hs fun v hv => ih v hv (isExact_of_mem exact hv)
    rw [toList_write_list]
    intro d hd
    simp only [List.mem_cons, List.mem_append, List.not_mem_nil, or_false] at hd
    rcases hd with rfl | hd | rfl
    · decide
    · exact items d hd
    · decide
  | obj ms ih =>
    have members := isPlain_of_mem_writeMembers hs hascii
      fun p hp => ih p hp (isExact_of_mem_members exact.1 hp)
    rw [toList_write_obj]
    intro d hd
    simp only [List.mem_cons, List.mem_append, List.not_mem_nil, or_false] at hd
    rcases hd with rfl | hd | rfl
    · decide
    · exact members d hd
    · decide

end Plain

end Json

namespace Bytes

/-! ## Documents as bytes -/

theorem utf8EncodeChar_of_isPlain {c : Char} (h : IsPlain c) :
    String.utf8EncodeChar c = [UInt8.ofNat c.toNat] :=
  if_pos (Nat.le_of_lt_succ h.2)

theorem ofText_of_isPlain {s : String} (h : ∀ c ∈ s.toList, IsPlain c) :
    ofText s = s.toList.map fun c => UInt8.ofNat c.toNat := by
  rw [ofText_eq]
  generalize s.toList = cs at h
  induction cs with
  | nil => rfl
  | cons c cs ih =>
    rw [List.flatMap_cons, utf8EncodeChar_of_isPlain (h c List.mem_cons_self),
      ih fun d hd => h d (List.mem_cons_of_mem c hd)]
    rfl

theorem toNat_of_isPlain {c : Char} (h : IsPlain c) : (UInt8.ofNat c.toNat).toNat = c.toNat := by
  rw [UInt8.toNat_ofNat', Nat.mod_eq_of_lt (Nat.lt_trans h.2 (by decide))]

/-- Neither a mark nor a zero byte is found in ASCII. -/
theorem detect_of_isPlain {cs : List Char} (h : ∀ c ∈ cs, IsPlain c) :
    detect (cs.map fun c => UInt8.ofNat c.toNat)
      = (.utf8, cs.map fun c => UInt8.ofNat c.toNat) := by
  have plain : ∀ n ∈ (cs.map fun c => UInt8.ofNat c.toNat).map (·.toNat), 0 < n ∧ n < 128 := by
    intro n hn
    simp only [List.map_map, List.mem_map, Function.comp_apply] at hn
    obtain ⟨c, hc, rfl⟩ := hn
    rw [toNat_of_isPlain (h c hc)]
    exact h c hc
  unfold detect
  split
  all_goals first
    | rfl
    | (rename_i heq; rw [heq] at plain; simp at plain)

theorem utf8From_of_isPlain {cs : List Char} (h : ∀ c ∈ cs, IsPlain c) (position : Nat) :
    utf8From position 0 (cs.map fun c => UInt8.ofNat c.toNat) = .ok cs := by
  induction cs generalizing position with
  | nil => rfl
  | cons c cs ih =>
    have plain := h c List.mem_cons_self
    have value := toNat_of_isPlain plain
    have whole : isHalfPair (UInt8.ofNat c.toNat) (cs.map fun c => UInt8.ofNat c.toNat)
        = false := by
      unfold isHalfPair
      rw [value]
      split
      · rename_i heq _
        have := plain.2
        omega
      · rfl
    rw [List.map_cons, utf8From]
    simp only [utf8Char, whole, utf8Code, value, plain.2, if_true, Bool.false_eq_true, if_false,
      Char.ofNat_toNat, Nat.sub_self, ih fun d hd => h d (List.mem_cons_of_mem c hd)]
    rfl

/-- A text in ASCII is read from its bytes. -/
theorem decode_ofText {s : String} (h : ∀ c ∈ s.toList, IsPlain c) :
    decode (ofText s) = .ok s := by
  rw [decode, ofText_of_isPlain h, detect_of_isPlain h]
  simp only [utf8From_of_isPlain h, Except.map, String.ofList_toList]

end Bytes

/-- An exact value that is not nested too deep is read back from the bytes of its document. -/
theorem Json.readBytes_write {style : Json.Style} (hs : style.IsSeparating)
    (hascii : style.ascii = true) {v : Value} (exact : v.IsExact)
    (hdepth : v.depth ≤ Json.maxDepth) :
    Json.readBytes (Bytes.ofText (Json.write style v)) = .ok v := by
  rw [Json.readBytes,
    Bytes.decode_ofText fun c hc => Json.isPlain_of_mem_write hs hascii exact c hc]
  simp only [Json.readDocument, Json.read_write hs exact hdepth]

end CrmAutomation
