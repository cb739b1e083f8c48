import CrmAutomation.Proofs.Webhook.Verification

/-!
# Headers as they come

The signature and the time stamp of a webhook are texts that anybody may send, and either may be
missing. Checking them ends in one of three ways. It accepts exactly the signature of the body at
the time that the time stamp writes, while that is timely (`Signature.Accepts`). It fails exactly
for a time that no double can hold, and for a timely one with a signature that has a character
outside ASCII after the scheme (`Signature.Stumbles`). Everything else is refused
(`Signature.verify_headers_iff`).
-/

namespace CrmAutomation.Signature

/-- The time that a header writes. -/
def time? (timestamp : Option String) : Option Int := timestamp.bind Number.readInteger?

theorem time?_toString {t : Int} (short : t.natAbs < 10 ^ Number.maxDigits) :
    time? (some (toString t)) = some t :=
  Number.readInteger?_toString short

/-- A text with a character outside ASCII. -/
def IsForeign (s : String) : Prop := ∃ c ∈ s.toList, 128 ≤ c.toNat

/-- Headers that are accepted: the time is timely, and the signature is that of the body at this
time. -/
def Accepts (now : Double) (tolerance : Tolerance) (secret : String) (body : Bytes)
    (signature timestamp : Option String) : Prop :=
  ∃ t, time? timestamp = some t ∧ (Double.ofInt t).isFinite = true ∧ IsTimely now tolerance t
    ∧ signature = some (scheme ++ digest secret t body)

/-- Headers that cannot be checked, and how checking them fails. -/
inductive Stumbles (now : Double) (tolerance : Tolerance) (signature timestamp : Option String) :
    Failure → Prop
  /-- The time is beyond the range of the doubles. -/
  | beyond {t : Int} (writes : time? timestamp = some t)
    (range : (Double.ofInt t).isFinite = false) :
    Stumbles now tolerance signature timestamp
      (.system .overflow "int too large to convert to float")
  /-- The time is timely, but the signature cannot be compared with a digest. -/
  | foreign {t : Int} {rest : String} (writes : time? timestamp = some t)
    (range : (Double.ofInt t).isFinite = true) (timely : IsTimely now tolerance t)
    (signed : signature = some (scheme ++ rest)) (foreign : IsForeign rest) :
    Stumbles now tolerance signature timestamp
      (.system .typeError "comparing strings with non-ASCII characters is not supported")

/-! ## Comparing signatures -/

theorem exists_eq_scheme_append {s : String} (h : scheme.toList.isPrefixOf s.toList = true) :
    ∃ rest, s = scheme ++ rest := by
  obtain ⟨rest, hrest⟩ := List.isPrefixOf_iff_prefix.mp h
  refine ⟨String.ofList rest, String.toList_injective ?_⟩
  rw [String.toList_append, String.toList_ofList, hrest]

/-- What a signature is compared with a digest to. -/
def compare (expected : String) : Option String → Except Failure Bool
  | none => .ok false
  | some s => matchesDigest expected s

/-- A signature without the scheme is refused. -/
theorem compare_of_forall {expected : String} {signature : Option String}
    (h : ∀ rest, signature ≠ some (scheme ++ rest)) : compare expected signature = .ok false := by
  cases signature with
  | none => rfl
  | some s =>
    have other : scheme.toList.isPrefixOf s.toList = false := by
      rw [← Bool.not_eq_true]
      intro leads
      obtain ⟨rest, rfl⟩ := exists_eq_scheme_append leads
      exact h rest rfl
    simp only [compare, matchesDigest, other]
    rfl

/-- What follows the scheme is compared with the digest if it is in ASCII. -/
theorem compare_scheme_append (expected rest : String) :
    compare expected (some (scheme ++ rest))
      = if rest.toList.any (fun c => decide (128 ≤ c.toNat)) then
          .error (.system .typeError
            "comparing strings with non-ASCII characters is not supported")
        else .ok (decide (expected = rest)) := by
  have received : (scheme ++ rest).toList.drop scheme.length = rest.toList := by
    rw [String.toList_append, ← String.length_toList, List.drop_left]
  have leads : scheme.toList.isPrefixOf (scheme ++ rest).toList = true := by
    rw [String.toList_append, List.isPrefixOf_iff_prefix]
    exact List.prefix_append _ _
  have same : (expected.toList == rest.toList) = decide (expected = rest) := by
    rw [Bool.eq_iff_iff, beq_iff_eq, decide_eq_true_iff]
    exact ⟨fun h => String.toList_injective h, fun h => h ▸ rfl⟩
  simp only [compare, matchesDigest, received, leads, same]
  rfl

theorem any_iff_isForeign (s : String) :
    s.toList.any (fun c => decide (128 ≤ c.toNat)) = true ↔ IsForeign s := by
  simp [IsForeign]

theorem not_isForeign_digest (secret : String) (t : Int) (body : Bytes) :
    ¬ IsForeign (digest secret t body) := by
  rintro ⟨c, hc, beyond⟩
  exact absurd (Crypto.lt_of_mem_hexText hc) (by omega)

/-! ## The order of the checks -/

section Checks

variable {now : Double} {tolerance : Tolerance} {secret : String} {body : Bytes}
  {signature timestamp : Option String} {t : Int}

/-- A time stamp that writes no time is refused. -/
theorem verify_of_time?_none (h : time? timestamp = none) :
    verify now tolerance secret body (.ofOption signature) (.ofOption timestamp) = .ok false := by
  cases timestamp with
  | none => rfl
  | some stamp =>
    have hread : Number.readInteger? stamp = none := h
    simp only [verify, Value.ofOption, Event.wholeNumber, hread]

/-- Checking headers with a time: first its age, then the signature. -/
theorem verify_of_time? (h : time? timestamp = some t) :
    verify now tolerance secret body (.ofOption signature) (.ofOption timestamp)
      = (age now t).bind fun d =>
          if tolerance.isBelow d then .ok false
          else compare (digest secret t body) signature := by
  obtain ⟨stamp, rfl, hread⟩ := Option.bind_eq_some_iff.mp h
  have whole : Event.wholeNumber (.str stamp) = .ok t := by
    rw [Event.wholeNumber, hread]
  rw [verify, Value.ofOption, whole]
  cases signature with
  | none => rfl
  | some s =>
    by_cases hs : s = ""
    · subst hs
      rfl
    · change (age now t).bind (fun d => if tolerance.isBelow d then .ok false
        else if s = "" then .ok false else matchesDigest (digest secret t body) s) = _
      rw [if_neg hs]
      rfl

theorem verify_of_beyond (h : time? timestamp = some t)
    (range : (Double.ofInt t).isFinite = false) :
    verify now tolerance secret body (.ofOption signature) (.ofOption timestamp)
      = .error (.system .overflow "int too large to convert to float") := by
  rw [verify_of_time? h, age_of_not_isFinite range]
  rfl

theorem verify_of_not_isTimely (h : time? timestamp = some t)
    (range : (Double.ofInt t).isFinite = true) (late : ¬ IsTimely now tolerance t) :
    verify now tolerance secret body (.ofOption signature) (.ofOption timestamp) = .ok false := by
  have below : tolerance.isBelow (now.sub (.ofInt t)).abs = true := by
    simpa [IsTimely] using late
  rw [verify_of_time? h, age_of_isFinite range]
  exact if_pos below

theorem verify_of_isTimely (h : time? timestamp = some t)
    (range : (Double.ofInt t).isFinite = true) (timely : IsTimely now tolerance t) :
    verify now tolerance secret body (.ofOption signature) (.ofOption timestamp)
      = compare (digest secret t body) signature := by
  rw [verify_of_time? h, age_of_isFinite range]
  exact if_neg (by rw [timely]; decide)

/-! ## What can come of it -/

/-- Headers that are accepted are those of the body. -/
theorem verify_of_accepts (h : Accepts now tolerance secret body signature timestamp) :
    verify now tolerance secret body (.ofOption signature) (.ofOption timestamp) = .ok true := by
  obtain ⟨t, writes, range, timely, rfl⟩ := h
  rw [verify_of_isTimely writes range timely, compare_scheme_append, if_neg, decide_eq_true rfl]
  rw [any_iff_isForeign]
  exact not_isForeign_digest secret t body

theorem verify_of_stumbles (secret : String) (body : Bytes) {f : Failure}
    (h : Stumbles now tolerance signature timestamp f) :
    verify now tolerance secret body (.ofOption signature) (.ofOption timestamp) = .error f := by
  cases h with
  | beyond writes range => exact verify_of_beyond writes range
  | foreign writes range timely signed foreign =>
    rw [verify_of_isTimely writes range timely, signed, compare_scheme_append,
      if_pos ((any_iff_isForeign _).mpr foreign)]

theorem verify_of_other (haccepts : ¬ Accepts now tolerance secret body signature timestamp)
    (hstumbles : ∀ f, ¬ Stumbles now tolerance signature timestamp f) :
    verify now tolerance secret body (.ofOption signature) (.ofOption timestamp) = .ok false := by
  cases writes : time? timestamp with
  | none => exact verify_of_time?_none writes
  | some t =>
    cases range : (Double.ofInt t).isFinite with
    | false => exact absurd (.beyond writes range) (hstumbles _)
    | true =>
      by_cases timely : IsTimely now tolerance t
      · rw [verify_of_isTimely writes range timely]
        by_cases signed : ∃ rest, signature = some (scheme ++ rest)
        · obtain ⟨rest, rfl⟩ := signed
          have ascii : ¬ IsForeign rest :=
            fun foreign => hstumbles _ (.foreign writes range timely rfl foreign)
          have differs : digest secret t body ≠ rest := by
            rintro rfl
            exact haccepts ⟨t, writes, range, timely, rfl⟩
          rw [compare_scheme_append, if_neg (by rwa [any_iff_isForeign]), decide_eq_false differs]
        · exact compare_of_forall fun rest h => signed ⟨rest, h⟩
      · exact verify_of_not_isTimely writes range timely

/-- Whatever the headers are, checking them tells whether they are those of the body, but for the
two kinds that it stumbles over. -/
theorem verify_headers_iff (now : Double) (tolerance : Tolerance) (secret : String) (body : Bytes)
    (signature timestamp : Option String) :
    let result := verify now tolerance secret body (.ofOption signature) (.ofOption timestamp)
    (result = .ok true ↔ Accepts now tolerance secret body signature timestamp) ∧
    (∀ f, result = .error f ↔ Stumbles now tolerance signature timestamp f) ∧
    (result = .ok false ↔ ¬ Accepts now tolerance secret body signature timestamp ∧
      ∀ f, ¬ Stumbles now tolerance signature timestamp f) := by
  intro result
  -- The three results exclude each other, so each case settles all three equivalences.
  by_cases haccepts : Accepts now tolerance secret body signature timestamp
  · have hresult : result = .ok true := verify_of_accepts haccepts
    have none_stumbles : ∀ f, ¬ Stumbles now tolerance signature timestamp f := fun f h => by
      cases hresult.symm.trans (verify_of_stumbles _ _ h)
    simp [hresult, haccepts, none_stumbles]
  · by_cases hstumbles : ∃ f, Stumbles now tolerance signature timestamp f
    · obtain ⟨f, hf⟩ := hstumbles
      have hresult : result = .error f := verify_of_stumbles _ _ hf
      have same : ∀ g, Stumbles now tolerance signature timestamp g ↔ f = g := fun g =>
        ⟨fun h => Except.error.inj (hresult.symm.trans (verify_of_stumbles _ _ h)), fun h => h ▸ hf⟩
      simp [hresult, haccepts, same]
    · have none_stumbles : ∀ f, ¬ Stumbles now tolerance signature timestamp f :=
        fun f h => hstumbles ⟨f, h⟩
      have hresult : result = .ok false := verify_of_other haccepts none_stumbles
      simp [hresult, haccepts, none_stumbles]

/-- A signature with a character outside ASCII is no signature, but checking it fails; and so does
checking a time of four hundred digits. -/
theorem malformed_headers_stumble :
    verify (.ofInt 1700000000) defaultTolerance "whsec_k" (Bytes.ofText "\x7b\x7d")
        (.str "sha256=é") (.str "1700000000")
      = .error (.system .typeError
          "comparing strings with non-ASCII characters is not supported") ∧
    verify (.ofInt 1700000000) defaultTolerance "whsec_k" (Bytes.ofText "\x7b\x7d")
        (.str "sha256=00") (.str (String.ofList (List.replicate 400 '9')))
      = .error (.system .overflow "int too large to convert to float") := by
  have stamp : time? (some "1700000000") = some 1700000000 := by decide +kernel
  have written : String.ofList (List.replicate 400 '9') = toString (10 ^ 400 - 1 : Int) := by
    refine String.toList_injective ?_
    rw [String.toList_ofList, Number.toList_toString]
    decide +kernel
  have nines : time? (some (String.ofList (List.replicate 400 '9'))) = some (10 ^ 400 - 1) :=
    written ▸ time?_toString (by decide +kernel)
  have foreign : Stumbles (.ofInt 1700000000) defaultTolerance (some "sha256=é")
      (some "1700000000") _ :=
    .foreign stamp (by decide +kernel) (by decide +kernel)
      (by decide +kernel : _ = some (scheme ++ "é")) ⟨'é', by decide, by decide⟩
  have beyond : Stumbles (.ofInt 1700000000) defaultTolerance (some "sha256=00")
      (some (String.ofList (List.replicate 400 '9'))) _ := .beyond nines (by decide +kernel)
  have first := verify_of_stumbles "whsec_k" (Bytes.ofText "\x7b\x7d") foreign
  have second := verify_of_stumbles "whsec_k" (Bytes.ofText "\x7b\x7d") beyond
  exact ⟨first, second⟩

end Checks

end CrmAutomation.Signature
