import CrmAutomation.Crypto.Base64Url
import CrmAutomation.Proofs.Json.Documents

/-!
# Base64 read back

Bytes are read back from their text in base64 (`decode?_ofText_encode`), which is ASCII and has no
point in it (`point_notMem_ofText_encode`).
-/

namespace CrmAutomation.Crypto.Base64Url

open Bytes

/-! ## Digits -/

/-- The six bits of a digit are read back. -/
theorem value?_digit : ∀ n < 64, value? (UInt8.ofNat (digit n).toNat) = some n := by decide

theorem isPlain_digit : ∀ n < 64, IsPlain (digit n) ∧ (digit n).toNat ≠ 46 := by decide

/-- Everything in a text is the digit of six bits. -/
theorem exists_digit_of_mem {c : Char} {bytes : Bytes} (h : c ∈ encodeChars bytes) :
    ∃ n < 64, c = digit n := by
  fun_induction encodeChars bytes with
  | case1 => cases h
  | case2 a =>
    have ha := a.toNat_lt
    rcases List.mem_pair.mp h with rfl | rfl <;> exact ⟨_, by omega, rfl⟩
  | case3 a b =>
    have ha := a.toNat_lt
    have hb := b.toNat_lt
    simp only [List.mem_cons, List.not_mem_nil, or_false] at h
    rcases h with rfl | rfl | rfl <;> exact ⟨_, by omega, rfl⟩
  | case4 a b c rest ih =>
    have ha := a.toNat_lt
    have hb := b.toNat_lt
    have hc := c.toNat_lt
    simp only [List.mem_cons] at h
    rcases h with rfl | rfl | rfl | rfl | h
    · exact ⟨_, by omega, rfl⟩
    · exact ⟨_, by omega, rfl⟩
    · exact ⟨_, by omega, rfl⟩
    · exact ⟨_, by omega, rfl⟩
    · exact ih h

/-! ## Groups -/

theorem ofNat_eq {n : Nat} {b : UInt8} (h : n = b.toNat) : UInt8.ofNat n = b := by
  rw [h, UInt8.ofNat_toNat]

/-- Groups of digits are read back as the bytes that they were made of. -/
theorem decode?_encodeChars (bytes : Bytes) :
    decode? ((encodeChars bytes).map fun c => UInt8.ofNat c.toNat) = some bytes := by
  fun_induction encodeChars bytes with
  | case1 => rfl
  | case2 a =>
    have ha := a.toNat_lt
    simp only [List.map_cons, List.map_nil, decode?, bind, Option.bind,
      value?_digit (a.toNat / 4) (by omega), value?_digit (a.toNat % 4 * 16) (by omega)]
    rw [if_pos (by omega), ofNat_eq (by omega : _ = a.toNat)]
  | case3 a b =>
    have ha := a.toNat_lt
    have hb := b.toNat_lt
    simp only [List.map_cons, List.map_nil, decode?, bind, Option.bind,
      value?_digit (a.toNat / 4) (by omega),
      value?_digit (a.toNat % 4 * 16 + b.toNat / 16) (by omega),
      value?_digit (b.toNat % 16 * 4) (by omega)]
    rw [if_pos (by omega), ofNat_eq (by omega : _ = a.toNat), ofNat_eq (by omega : _ = b.toNat)]
  | case4 a b c rest ih =>
    have ha := a.toNat_lt
    have hb := b.toNat_lt
    have hc := c.toNat_lt
    simp only [List.map_cons, decode?, bind, Option.bind, pure, ih,
      value?_digit (a.toNat / 4) (by omega),
      value?_digit (a.toNat % 4 * 16 + b.toNat / 16) (by omega),
      value?_digit (b.toNat % 16 * 4 + c.toNat / 64) (by omega),
      value?_digit (c.toNat % 64) (by omega)]
    rw [ofNat_eq (by omega : _ = a.toNat), ofNat_eq (by omega : _ = b.toNat),
      ofNat_eq (by omega : _ = c.toNat)]

theorem ofText_encode (bytes : Bytes) :
    ofText (encode bytes) = (encodeChars bytes).map fun c => UInt8.ofNat c.toNat := by
  rw [encode, ofText_of_isPlain, String.toList_ofList]
  intro c hc
  obtain ⟨n, hn, rfl⟩ := exists_digit_of_mem (String.toList_ofList ▸ hc)
  exact (isPlain_digit n hn).1

/-- Bytes are read back from their text. -/
theorem decode?_ofText_encode (bytes : Bytes) : decode? (ofText (encode bytes)) = some bytes := by
  rw [ofText_encode, decode?_encodeChars]

theorem point_notMem_ofText_encode (bytes : Bytes) : 46 ∉ ofText (encode bytes) := by
  rw [ofText_encode, List.mem_map]
  rintro ⟨c, hc, point⟩
  obtain ⟨n, hn, rfl⟩ := exists_digit_of_mem hc
  obtain ⟨plain, differ⟩ := isPlain_digit n hn
  exact differ ((toNat_of_isPlain plain).symm.trans (congrArg UInt8.toNat point))

end CrmAutomation.Crypto.Base64Url
