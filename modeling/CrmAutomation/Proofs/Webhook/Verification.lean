import CrmAutomation.Proofs.Http.Segments
import CrmAutomation.Proofs.Number.IntegerText
import CrmAutomation.Proofs.Number.Rounding
import CrmAutomation.Proofs.Service.Deliveries
import CrmAutomation.Proofs.Store.Lifecycle

/-!
# Signatures that verify

A signature is made of the keyed digest of a time stamp, a point and a body. Both can be read off
that message, whatever bytes the body holds (`Signature.message_inj`), and the text of a time
stamp reads back (`Signature.readInteger?_of_isFinite`). So if digests tell two messages apart, a
signature verifies its own body and time and nothing else, while the clock is within the tolerance
(`Signature.verify_signed_iff`). The distance from the clock is one of doubles
(`Signature.IsTimely`): for clocks that tick in multiples of `2 ^ -22` seconds it is as good as
exact (`Signature.isTimely_iff`), but not for times that no double can hold
(`Signature.late_signature_accepted`).
-/

namespace CrmAutomation

/-! ## Hexadecimal text -/

namespace Crypto

theorem hexDigit_inj : ∀ m < 16, ∀ n < 16, hexDigit m = hexDigit n → m = n := by decide

theorem hexDigit_lt : ∀ n < 16, (hexDigit n).toNat < 128 := by decide

theorem hexText_injective {x y : Bytes} (h : hexText x = hexText y) : x = y := by
  replace h := String.ofList_injective h
  induction x generalizing y with
  | nil => cases y with
    | nil => rfl
    | cons c y => cases h
  | cons b x ih => cases y with
    | nil => cases h
    | cons c y =>
      simp only [List.flatMap_cons, List.cons_append, List.nil_append, List.cons.injEq] at h
      obtain ⟨high, low, rest⟩ := h
      have hb := b.toNat_lt
      have hc := c.toNat_lt
      have high := hexDigit_inj _ (by omega) _ (by omega) high
      have low := hexDigit_inj _ (by omega) _ (by omega) low
      rw [ih rest, UInt8.toNat_inj.mp (by omega : b.toNat = c.toNat)]

theorem lt_of_mem_hexText {c : Char} {bytes : Bytes} (h : c ∈ (hexText bytes).toList) :
    c.toNat < 128 := by
  rw [hexText, String.toList_ofList, List.mem_flatMap] at h
  obtain ⟨b, -, hc⟩ := h
  have hb := b.toNat_lt
  rcases List.mem_pair.mp hc with rfl | rfl <;> exact hexDigit_lt _ (by omega)

end Crypto

/-! ## What is signed -/

namespace Signature

/-- The byte of the point between the time stamp and the body. -/
theorem ofText_append_point (s : String) :
    Bytes.ofText (s ++ ".") = Bytes.ofText s ++ [46] := by
  rw [Bytes.ofText_eq, Bytes.ofText_eq, String.toList_append, List.flatMap_append]
  rfl

theorem point_notMem_utf8EncodeChar {c : Char} (h : Number.IsWritten c) :
    46 ∉ String.utf8EncodeChar c := by
  rcases h with h | rfl
  · simp only [Char.isDigit, Bool.and_eq_true, decide_eq_true_eq] at h
    have low : 48 ≤ c.val.toNat := h.1
    have high : c.val.toNat ≤ 57 := h.2
    rw [String.utf8EncodeChar, if_pos (by omega), List.mem_singleton]
    intro point
    have same : 46 = c.val.toNat % 256 := congrArg UInt8.toNat point
    omega
  · decide

theorem point_notMem_ofText (t : Int) : 46 ∉ Bytes.ofText (toString t) := by
  rw [Bytes.ofText_eq, List.mem_flatMap]
  rintro ⟨c, hc, point⟩
  exact point_notMem_utf8EncodeChar (Number.isWritten_of_mem hc) point

/-- The time stamp and the body are known from what is signed, whatever bytes the body holds. -/
theorem message_inj {t t' : Int} {p p' : Bytes} (h : message t p = message t' p') :
    t = t' ∧ p = p' := by
  simp only [message, ofText_append_point, List.append_assoc, List.singleton_append] at h
  obtain ⟨stamps, bodies⟩ := split_at_separator (point_notMem_ofText t) (point_notMem_ofText t') h
  exact ⟨Number.toString_injective (Bytes.ofText_injective stamps), bodies⟩

/-- The digest of a message under a secret. -/
def keyedDigest (secret : String) (message : Bytes) : Bytes :=
  Crypto.Sha2.sha256.keyed (Bytes.ofText secret) message

/-- Two messages have different digests under a secret if they differ. -/
def TellsApart (secret : String) (m m' : Bytes) : Prop :=
  keyedDigest secret m = keyedDigest secret m' → m = m'

/-- The time that a body is signed at: the present second where no other one is given. -/
def signedAt (second : Int) (timestamp : Option Int) : Int :=
  if timestamp.getD 0 = 0 then second else timestamp.getD 0

theorem headers_eq (freshId secret : String) (second : Int) (timestamp : Option Int)
    (deliveryId : Option String) (body : Bytes) :
    headers freshId second timestamp deliveryId secret body =
      headersAt (signedAt second timestamp)
        (if deliveryId.getD "" = "" then freshId else deliveryId.getD "") secret body := rfl

/-! ## Checking -/

/-- Whether a clock is within a tolerance of a time stamp as doubles have it: the time stamp is the
nearest double, and the difference is rounded to the nearest one. -/
def IsTimely (now : Double) (tolerance : Tolerance) (t : Int) : Prop :=
  tolerance.isBelow (now.sub (.ofInt t)).abs = false

instance (now : Double) (tolerance : Tolerance) (t : Int) : Decidable (IsTimely now tolerance t) :=
  inferInstanceAs (Decidable (_ = false))

theorem age_of_isFinite {t : Int} (h : (Double.ofInt t).isFinite = true) (now : Double) :
    age now t = .ok (now.sub (.ofInt t)).abs := by
  simp only [age, h, if_true]

theorem age_of_not_isFinite {t : Int} (h : (Double.ofInt t).isFinite = false) (now : Double) :
    age now t = .error (.system .overflow "int too large to convert to float") := by
  rw [age, h]
  rfl

/-- A signature that is made of a digest matches that digest only. -/
theorem matchesDigest_hexText (expected bytes : Bytes) :
    matchesDigest (Crypto.hexText expected) (scheme ++ Crypto.hexText bytes)
      = .ok (decide (expected = bytes)) := by
  have received : (scheme ++ Crypto.hexText bytes).toList.drop scheme.length
      = (Crypto.hexText bytes).toList := by
    rw [String.toList_append, ← String.length_toList, List.drop_left]
  have leads : scheme.toList.isPrefixOf (scheme ++ Crypto.hexText bytes).toList = true := by
    rw [String.toList_append, List.isPrefixOf_iff_prefix]
    exact List.prefix_append _ _
  have ascii : (Crypto.hexText bytes).toList.any (fun c => decide (128 ≤ c.toNat)) = false := by
    rw [List.any_eq_false]
    intro c hc
    have := Crypto.lt_of_mem_hexText hc
    simpa using this
  have same : ((Crypto.hexText expected).toList == (Crypto.hexText bytes).toList)
      = decide (expected = bytes) := by
    rw [Bool.eq_iff_iff, beq_iff_eq, decide_eq_true_iff]
    exact ⟨fun h => Crypto.hexText_injective (String.toList_injective h), fun h => h ▸ rfl⟩
  simp only [matchesDigest, received, leads, ascii, same]
  rfl

theorem scheme_append_ne_empty (s : String) : scheme ++ s ≠ "" := by
  simp [scheme]

/-- Checking a signature under a time stamp that can be read: first the age, then the digest. -/
theorem verify_of_readInteger? {now : Double} {tolerance : Tolerance} {secret stamp : String}
    {body bytes : Bytes} {t : Int} (h : Number.readInteger? stamp = some t) :
    verify now tolerance secret body (.str (scheme ++ Crypto.hexText bytes)) (.str stamp)
      = (age now t).bind fun d =>
          if tolerance.isBelow d then .ok false
          else .ok (decide (keyedDigest secret (message t body) = bytes)) := by
  have whole : Event.wholeNumber (.str stamp) = .ok t := by
    rw [Event.wholeNumber, h]
  rw [verify, whole]
  change (age now t).bind (fun d => if tolerance.isBelow d then .ok false
    else if scheme ++ Crypto.hexText bytes = "" then .ok false
    else matchesDigest (digest secret t body) (scheme ++ Crypto.hexText bytes)) = _
  rw [if_neg (scheme_append_ne_empty _), digest, matchesDigest_hexText]
  rfl

/-- What a signature made of a digest is accepted for. -/
theorem verify_hexText_iff {now : Double} {tolerance : Tolerance} {secret stamp : String}
    {body bytes : Bytes} :
    verify now tolerance secret body (.str (scheme ++ Crypto.hexText bytes)) (.str stamp)
        = .ok true ↔
      ∃ t, Number.readInteger? stamp = some t ∧ (Double.ofInt t).isFinite = true
        ∧ IsTimely now tolerance t ∧ keyedDigest secret (message t body) = bytes := by
  cases hread : Number.readInteger? stamp with
  | none => simp [verify, Event.wholeNumber, hread]
  | some t =>
    rw [verify_of_readInteger? hread]
    simp only [Option.some.injEq, exists_eq_left', IsTimely]
    cases hfinite : (Double.ofInt t).isFinite with
    | false =>
      rw [age_of_not_isFinite hfinite]
      simp [Except.bind]
    | true =>
      rw [age_of_isFinite hfinite]
      generalize (now.sub (Double.ofInt t)).abs = d
      cases hd : tolerance.isBelow d <;> simp [Except.bind, hd]

/-! ## Headers -/

theorem lookup_signatureHeader (t : Int) (deliveryId secret : String) (body : Bytes) :
    (headersAt t deliveryId secret body).lookup signatureHeader
      = some (scheme ++ digest secret t body) := by
  simp [headersAt]

/-- The headers of a webhook that carry the signature and the time stamp. -/
theorem header?_of_deliveryHeaders {r : Http.Request} {freshId deliveryId secret text : String}
    {second : Int} (hsecret : secret ≠ "")
    (h : r.headers = Service.deliveryHeaders freshId second secret deliveryId text) :
    r.header? signatureHeader.toLower
        = some (scheme ++ digest secret second (Bytes.ofText text)) ∧
      r.header? timestampHeader.toLower = some (toString second) := by
  have distinct : (signatureHeader.toLower == timestampHeader.toLower) = false := by
    decide +kernel
  rw [Service.deliveryHeaders, if_neg hsecret, headers_eq] at h
  constructor
  · rw [Http.Request.header?, h]
    simp [headersAt, signedAt]
  · rw [Http.Request.header?, h]
    simp [headersAt, signedAt, distinct]

/-- What the receiver of a signed webhook finds in it. -/
theorem of_mem_webhooks {d : Service.Delivery} {secret : String} (hsecret : d.secret? = .ok secret)
    (hne : secret ≠ "") {r : Http.Request} (hr : r ∈ d.webhooks) :
    r.body = some d.text ∧
      r.header? signatureHeader.toLower
        = some (scheme ++ digest secret d.second (Bytes.ofText d.text)) ∧
      r.header? timestampHeader.toLower = some (toString d.second) := by
  obtain ⟨request, kept, hbody, hheaders⟩ := Service.Delivery.of_mem_webhooks hsecret hr
  obtain ⟨hsignature, hstamp⟩ := header?_of_deliveryHeaders hne hheaders
  exact ⟨kept.body.trans hbody, kept.header (by decide +kernel) hsignature,
    kept.header (by decide +kernel) hstamp⟩

/-- The text of a time stamp within the range of the doubles reads back. -/
theorem readInteger?_of_isFinite {t : Int} (h : (Double.ofInt t).isFinite = true) :
    Number.readInteger? (toString t) = some t := by
  have short : Double.limit ≤ 10 ^ Number.maxDigits := by decide +kernel
  exact Number.readInteger?_toString ((Double.natAbs_lt_of_isFinite h).trans_le short)

/-! ## What verifies -/

/-- Nothing but a signed body and its time verifies if digests tell the messages apart. -/
theorem verify_changed_iff {now : Double} {tolerance : Tolerance} {secret stamp : String}
    {p p' : Bytes} {t : Int} (range : (Double.ofInt t).isFinite = true)
    (apart : ∀ t', Number.readInteger? stamp = some t' →
      TellsApart secret (message t' p') (message t p)) :
    verify now tolerance secret p' (.str (scheme ++ digest secret t p)) (.str stamp) = .ok true ↔
      p' = p ∧ Number.readInteger? stamp = some t ∧ IsTimely now tolerance t := by
  rw [digest, verify_hexText_iff]
  constructor
  · rintro ⟨t', hread, -, timely, same⟩
    obtain ⟨rfl, rfl⟩ := message_inj (apart t' hread same)
    exact ⟨rfl, hread, timely⟩
  · rintro ⟨rfl, hread, timely⟩
    exact ⟨t, hread, range, timely, rfl⟩

/-- A signed body verifies under its own time stamp as long as that is timely. -/
theorem verify_unchanged_iff {now : Double} {tolerance : Tolerance} {secret : String}
    {body : Bytes} {t : Int} (range : (Double.ofInt t).isFinite = true) :
    verify now tolerance secret body (.str (scheme ++ digest secret t body)) (.str (toString t))
        = .ok true ↔ IsTimely now tolerance t := by
  have reads := readInteger?_of_isFinite range
  rw [verify_changed_iff range]
  · exact ⟨fun h => h.2.2, fun timely => ⟨rfl, reads, timely⟩⟩
  · intro t' ht' _
    rw [Option.some.inj (reads.symm.trans ht')]

/-- For a whole tolerance and a clock that counts in `2 ^ -22` seconds, being timely is what it is
without rounding. -/
theorem isTimely_iff {now : Double} {u t seconds : Int} (hnow : now.signedUnits? = some u)
    (grained : Double.grain ∣ u.natAbs) (near : u.natAbs ≤ 2 ^ 52 * Double.one)
    (range : (Double.ofInt t).isFinite = true) (small : seconds < 2 ^ 31) :
    IsTimely now (.whole seconds) t ↔ (u - t * Double.one).natAbs ≤ seconds * Double.one := by
  rw [IsTimely, ← Bool.not_eq_true, ← Int.not_lt]
  exact not_congr (Double.intLt_abs_sub_ofInt hnow grained near range small)

/-- A signature verifies the body and the time that it was made for and nothing else, while the
clock is within the tolerance. That is so for signed headers and for the webhooks of a delivery,
and for a whole tolerance the clock may be compared without rounding. -/
theorem verify_signed_iff (secret : String) (p p' : Bytes) {stamp : String} {second : Int}
    {timestamp : Option Int} (range : (Double.ofInt (signedAt second timestamp)).isFinite = true)
    (apart : ∀ t', Number.readInteger? stamp = some t' →
      TellsApart secret (message t' p') (message (signedAt second timestamp) p))
    (freshId : String) (deliveryId : Option String) (now : Double) (tolerance : Tolerance) :
    let t := signedAt second timestamp
    let sent := headers freshId second timestamp deliveryId secret p
    (∃ signature, sent.lookup signatureHeader = some signature ∧
      (verify now tolerance secret p' (.str signature) (.str stamp) = .ok true ↔
        p' = p ∧ Number.readInteger? stamp = some t ∧ IsTimely now tolerance t)) ∧
    (∀ u seconds : Int, now.signedUnits? = some u → Double.grain ∣ u.natAbs →
      u.natAbs ≤ 2 ^ 52 * Double.one → seconds < 2 ^ 31 →
      (IsTimely now (.whole seconds) t ↔
        (u - t * Double.one).natAbs ≤ seconds * Double.one)) ∧
    ∀ d : Service.Delivery, d.second = t → d.secret? = .ok secret → secret ≠ "" →
      Bytes.ofText d.text = p → ∀ r ∈ d.webhooks, r.body = some d.text ∧
        r.header? timestampHeader.toLower = some (toString t) ∧
        ∃ signature, r.header? signatureHeader.toLower = some signature ∧
          (verify now tolerance secret p (.str signature) (.str (toString t)) = .ok true ↔
            IsTimely now tolerance t) ∧
          (verify now tolerance secret p' (.str signature) (.str stamp) = .ok true ↔
            p' = p ∧ Number.readInteger? stamp = some t ∧ IsTimely now tolerance t) := by
  intro t sent
  refine ⟨⟨_, lookup_signatureHeader _ _ _ _, verify_changed_iff range apart⟩, ?_, ?_⟩
  · intro u seconds hnow grained near small
    exact isTimely_iff hnow grained near range small
  · rintro d hsecond hsecret hne rfl r hr
    obtain ⟨hbody, hsignature, hstamp⟩ := of_mem_webhooks hsecret hne hr
    rw [hsecond] at hsignature hstamp
    exact ⟨hbody, hstamp, _, hsignature, verify_unchanged_iff range,
      verify_changed_iff range apart⟩

/-- A body that was changed on the way fails, and unchanged it verifies under any text of its
time. -/
theorem verify_signed_iff_of_second :
    ∃ signature,
      (headers "id" 1700000000 none none "whsec_k" (Bytes.ofText "1.5")).lookup signatureHeader
        = some signature ∧
      verify (.ofInt 1700000300) defaultTolerance "whsec_k" (Bytes.ofText "1.5")
        (.str signature) (.str " +1700000000") = .ok true ∧
      verify (.ofInt 1700000300) defaultTolerance "whsec_k" (Bytes.ofText "5")
        (.str signature) (.str "1700000000") ≠ .ok true := by
  have range : (Double.ofInt (signedAt 1700000000 none)).isFinite = true := by decide +kernel
  have loose : Number.readInteger? " +1700000000" = some 1700000000 := by decide +kernel
  have plain : Number.readInteger? "1700000000" = some 1700000000 := by decide +kernel
  have timely : IsTimely (.ofInt 1700000300) defaultTolerance 1700000000 := by decide +kernel
  have differ : keyedDigest "whsec_k" (message 1700000000 (Bytes.ofText "5"))
      ≠ keyedDigest "whsec_k" (message 1700000000 (Bytes.ofText "1.5")) := by decide +kernel
  obtain ⟨⟨signature, found, unchanged⟩, -⟩ :=
    verify_signed_iff "whsec_k" (Bytes.ofText "1.5") (Bytes.ofText "1.5") range
      (fun t' ht' _ => by rw [← Option.some.inj (loose.symm.trans ht')]; rfl)
      "id" none (.ofInt 1700000300) defaultTolerance
  obtain ⟨⟨signature', found', changed⟩, -⟩ :=
    verify_signed_iff "whsec_k" (Bytes.ofText "1.5") (Bytes.ofText "5") range
      (fun t' ht' same => by
        rw [← Option.some.inj (plain.symm.trans ht')] at same
        exact absurd same differ)
      "id" none (.ofInt 1700000300) defaultTolerance
  obtain rfl := Option.some.inj (found.symm.trans found')
  refine ⟨signature, found, unchanged.mpr ⟨rfl, loose, timely⟩, fun accepted => ?_⟩
  exact absurd (changed.mp accepted).1 (by decide +kernel)

/-- In doubles the distance of two times can be less than it is: this time stamp is off by a second
more than the tolerance, and still verifies. -/
theorem late_signature_accepted :
    ∃ signature,
      (headers "id" 1700000000 (some 9007199254740993) none "whsec_k"
          (Bytes.ofText "\x7b\x7d")).lookup signatureHeader = some signature ∧
      (Double.ofInt 1700000000).signedUnits? = some (1700000000 * Double.one) ∧
      verify (.ofInt 1700000000) (.whole 9007197554740992) "whsec_k" (Bytes.ofText "\x7b\x7d")
        (.str signature) (.str "9007199254740993") = .ok true ∧
      (9007197554740992 : Int) < (1700000000 - 9007199254740993 : Int).natAbs := by
  have range : (Double.ofInt 9007199254740993).isFinite = true := by decide +kernel
  refine ⟨_, lookup_signatureHeader _ _ _ _, by decide +kernel, ?_, by decide⟩
  exact (verify_unchanged_iff range).mpr (by decide +kernel)

end Signature

end CrmAutomation
