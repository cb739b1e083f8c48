import CrmAutomation.Access.Token
import CrmAutomation.Proofs.Crypto.Base64Url

/-!
# Signed claims read back

A token is three texts in base64 between points, and base64 has no point in it: so the parts of a
token are found again (`splitLast_append`, `splitFirst_append`), and claims that are signed with a
key that can sign are read back under this key (`signedClaims_encode`).
-/

namespace CrmAutomation.Token

open Bytes Crypto

/-! ## Parts -/

theorem ofText_append (s t : String) : ofText (s ++ t) = ofText s ++ ofText t := by
  rw [ofText_eq, ofText_eq, ofText_eq, String.toList_append, List.flatMap_append]

theorem takeWhile_point {xs ys : Bytes} (h : 46 ∉ xs) :
    (xs ++ 46 :: ys).takeWhile (· != 46) = xs := by
  have others : ∀ x ∈ xs, (x != 46) = true := fun x hx => bne_iff_ne.mpr fun heq => h (heq ▸ hx)
  rw [List.takeWhile_append_of_pos others]
  simp

/-- What is after the last point of a text has no point in it. -/
theorem splitLast_append {xs ys : Bytes} (h : 46 ∉ ys) :
    splitLast (xs ++ 46 :: ys) = some (xs, ys) := by
  have last : ((xs ++ 46 :: ys).reverse.takeWhile (· != 46)).reverse = ys := by
    rw [List.reverse_append, List.reverse_cons, List.append_assoc, List.singleton_append,
      takeWhile_point (by simpa using h), List.reverse_reverse]
  have before : (xs ++ 46 :: ys).length - ys.length - 1 = xs.length := by
    rw [List.length_append, List.length_cons]
    omega
  rw [splitLast, last, before, if_neg (by simp; omega), List.take_left]

/-- What is before the first point of a text has no point in it. -/
theorem splitFirst_append {xs ys : Bytes} (h : 46 ∉ xs) :
    splitFirst (xs ++ 46 :: ys) = some (xs, ys) := by
  rw [splitFirst, takeWhile_point h, if_neg (by simp)]
  simp

/-! ## Claims -/

theorem object_ofText_write {ms : Members} (exact : (Value.obj ms).IsExact)
    (hdepth : (Value.obj ms).depth ≤ Json.maxDepth) :
    object (ofText (Json.write .compact (.obj ms))) = .ok ms := by
  rw [object, Json.readBytes_write Json.isSeparating_compact rfl exact hdepth]

/-- The header of a token. -/
def header (algorithm : Algorithm) : Members :=
  [("alg", .str algorithm.text), ("typ", .str "JWT")]

/-- What the signature of a token signs. -/
def signedBytes (algorithm : Algorithm) (claims : Members) : Bytes :=
  ofText (segment (.obj (header algorithm))) ++ 46 :: ofText (segment (.obj claims))

theorem ofText_encode (algorithm : Algorithm) (key : String) (claims : Members) :
    ofText (encode algorithm key claims) = signedBytes algorithm claims
      ++ 46 :: ofText (Base64Url.encode
        (algorithm.sign (ofText key) (signedBytes algorithm claims))) := by
  have point : ofText "." = [46] := by decide
  simp only [encode, signedBytes, header, ofText_append, point, List.append_assoc,
    List.singleton_append]

/-- Claims are read back from a token that is signed with the key. -/
theorem signedClaims_encode {key : String} (hkey : Secret.refusal? key = none) {claims : Members}
    (exact : (Value.obj claims).IsExact) (hdepth : (Value.obj claims).depth ≤ Json.maxDepth) :
    signedClaims key (encode .hs256 key claims) = .ok claims := by
  have accepted : acceptsHeader (header .hs256) = true := by decide
  have first : object (ofText (Json.write .compact (.obj (header .hs256)))) = .ok (header .hs256) :=
    object_ofText_write ⟨⟨trivial, trivial, trivial⟩, by decide⟩ (by decide)
  have second := object_ofText_write exact hdepth
  have parts : splitFirst (signedBytes .hs256 claims)
      = some (ofText (segment (.obj (header .hs256))), ofText (segment (.obj claims))) :=
    splitFirst_append (Base64Url.point_notMem_ofText_encode _)
  rw [signedClaims, ofText_encode, splitLast_append (Base64Url.point_notMem_ofText_encode _)]
  simp only [needed, bind, Except.bind, parts, segment, Base64Url.decode?_ofText_encode, first,
    second, accepted, hkey, Bool.not_true, Bool.false_eq_true, if_false, beq_self_eq_true, if_true]

end CrmAutomation.Token
