import CrmAutomation.Proofs.Access.Lifetime

/-!
# Tokens that cannot be judged

A token is either accepted or rejected, unless looking at it fails. It fails while the token is
opened (`Token.Opens`) where its header or its claims are nested too deep and where the key must not
be used, and after all checks have passed (`Token.Passes`) where the claims do not describe an
operator: a second of issue or of expiry that is in no calendar, or another claim that is no text
(`Token.IsReadable`). For all other tokens there is an answer (`Token.verify_answers_iff`).
-/

namespace CrmAutomation.Token

open Bytes Crypto

/-! ## Parts of tokens -/

theorem splitLast_eq_some_iff {bytes xs ys : Bytes} :
    splitLast bytes = some (xs, ys) ↔ bytes = xs ++ 46 :: ys ∧ 46 ∉ ys := by
  constructor
  · intro h
    by_cases hpoint : 46 ∈ bytes
    · obtain ⟨back, front, hreverse, hback⟩ :=
        List.eq_append_cons_of_mem (List.mem_reverse.mpr hpoint)
      have hbytes : bytes = front.reverse ++ 46 :: back.reverse := by
        rw [← List.reverse_reverse bytes, hreverse]
        simp
      rw [hbytes, splitLast_append (by simpa using hback)] at h
      cases h
      exact ⟨hbytes, by simpa using hback⟩
    · have hall : bytes.reverse.takeWhile (· != 46) = bytes.reverse :=
        List.takeWhile_eq_self_iff.mpr fun x hx =>
          bne_iff_ne.mpr fun heq => hpoint (heq ▸ List.mem_reverse.mp hx)
      simp [splitLast, hall] at h
  · rintro ⟨rfl, hys⟩
    exact splitLast_append hys

theorem splitFirst_eq_some_iff {bytes xs ys : Bytes} :
    splitFirst bytes = some (xs, ys) ↔ bytes = xs ++ 46 :: ys ∧ 46 ∉ xs := by
  constructor
  · intro h
    by_cases hpoint : 46 ∈ bytes
    · obtain ⟨front, back, rfl, hfront⟩ := List.eq_append_cons_of_mem hpoint
      rw [splitFirst_append hfront] at h
      cases h
      exact ⟨rfl, hfront⟩
    · have hall : bytes.takeWhile (· != 46) = bytes :=
        List.takeWhile_eq_self_iff.mpr fun x hx => bne_iff_ne.mpr fun heq => hpoint (heq ▸ hx)
      simp [splitFirst, hall] at h
  · rintro ⟨rfl, hxs⟩
    exact splitFirst_append hxs

/-- The texts of a token before, between and after its points. -/
structure Splits (token : String) (first second third : Bytes) : Prop where
  token : ofText token = (first ++ 46 :: second) ++ 46 :: third
  first : 46 ∉ first
  third : 46 ∉ third

/-- Bytes that are nested too deep to be read. -/
def IsTooDeep (bytes : Bytes) (message : String) : Prop :=
  ∃ fault, Json.readBytes bytes = .error fault ∧ fault.failure = .system .recursion message

/-- A token with a header that is accepted: what is signed, the claims and the signature. -/
structure Presents (token : String) (signed claims signature : Bytes) : Prop where
  parts : ∃ first second third bytes header, Splits token first second third ∧
    signed = first ++ 46 :: second ∧ Base64Url.decode? first = some bytes ∧
    Json.readBytes bytes = .ok (.obj header) ∧ acceptsHeader header = true ∧
    Base64Url.decode? second = some claims ∧ Base64Url.decode? third = some signature

/-- What comes of opening a token that is not invalid. -/
inductive Opens (key token : String) : Except Denial Members → Prop
  | deepHeader {first second third bytes : Bytes} {message : String}
    (splits : Splits token first second third) (decodes : Base64Url.decode? first = some bytes)
    (deep : IsTooDeep bytes message) :
    Opens key token (.error (.failed (.system .recursion message)))
  | refusedKey {signed claims signature : Bytes} {failure : Failure}
    (presents : Presents token signed claims signature)
    (refused : Secret.refusal? key = some failure) :
    Opens key token (.error (.failed failure))
  | deepClaims {signed claims : Bytes} {message : String}
    (presents : Presents token signed claims (Algorithm.hs256.sign (ofText key) signed))
    (allowed : Secret.refusal? key = none) (deep : IsTooDeep claims message) :
    Opens key token (.error (.failed (.system .recursion message)))
  | claims {signed bytes : Bytes} {claims : Members}
    (presents : Presents token signed bytes (Algorithm.hs256.sign (ofText key) signed))
    (allowed : Secret.refusal? key = none) (reads : Json.readBytes bytes = .ok (.obj claims)) :
    Opens key token (.ok claims)

/-! ## Opening tokens -/

section Opening

variable {α β : Type} {r : Except Denial β} {ms : Members} {bytes : Bytes}

theorem needed_bind_eq_iff {x : Option α} {f : α → Except Denial β}
    (hr : r ≠ .error (.rejected .invalid)) :
    (needed x >>= f) = r ↔ ∃ a, x = some a ∧ f a = r := by
  cases x with
  | none => simpa [needed, bind, Except.bind] using Ne.symm hr
  | some a => simp [needed, bind, Except.bind]

theorem object_bind_eq_iff {f : Members → Except Denial β} (hr : r ≠ .error (.rejected .invalid)) :
    (object bytes >>= f) = r ↔ (∃ ms, Json.readBytes bytes = .ok (.obj ms) ∧ f ms = r) ∨
      ∃ message, IsTooDeep bytes message ∧ r = .error (.failed (.system .recursion message)) := by
  unfold object IsTooDeep
  split
  · rename_i ms hread
    simp [hread, bind, Except.bind]
  · rename_i v hother hread
    have hobject : ∀ ms, v ≠ .obj ms := hother
    simp [hread, hobject, Ne.symm hr, bind, Except.bind]
  · rename_i fault hread
    split
    · rename_i message hdeep
      simp [hread, hdeep, bind, Except.bind, eq_comm]
    · rename_i hother
      have hshallow : ∀ message, fault.failure ≠ .system .recursion message := hother
      simp [hread, hshallow, Ne.symm hr, bind, Except.bind]

theorem object_eq_iff {r : Except Denial Members} (hr : r ≠ .error (.rejected .invalid)) :
    object bytes = r ↔ (∃ ms, Json.readBytes bytes = .ok (.obj ms) ∧ .ok ms = r) ∨
      ∃ message, IsTooDeep bytes message ∧ r = .error (.failed (.system .recursion message)) := by
  rw [← bind_pure (object bytes)]
  exact object_bind_eq_iff hr

/-- A token with a header that is accepted is opened with the key. -/
theorem signedClaims_of_presents {key token : String} {signed claims signature : Bytes}
    (presents : Presents token signed claims signature) :
    signedClaims key token = match Secret.refusal? key with
      | some failure => .error (.failed failure)
      | none =>
        if Algorithm.hs256.sign (ofText key) signed == signature then object claims
        else .error (.rejected .invalid) := by
  obtain ⟨first, second, third, bytes, header, ⟨htoken, hfirst, hthird⟩, rfl, hbytes, hheader,
    haccepts, hclaims, hsignature⟩ := presents
  have hobject : object bytes = .ok header := by rw [object, hheader]
  rw [signedClaims, htoken, splitLast_append hthird]
  simp only [needed, bind, Except.bind, splitFirst_append hfirst, hbytes, hobject, hclaims,
    hsignature, haccepts, Bool.not_true, Bool.false_eq_true, if_false]
  rfl

/-- What comes of the parts of a token. -/
theorem signedClaims_eq_iff {key token : String} {r : Except Denial Members}
    (hr : r ≠ .error (.rejected .invalid)) : signedClaims key token = r ↔ Opens key token r := by
  constructor
  · -- Each step that comes to something other than a rejection has found its part.
    intro h
    obtain ⟨⟨signed, third⟩, hlast, h⟩ := (needed_bind_eq_iff hr).mp h
    obtain ⟨⟨first, second⟩, hfirst, h⟩ := (needed_bind_eq_iff hr).mp h
    obtain ⟨bytes, hbytes, h⟩ := (needed_bind_eq_iff hr).mp h
    obtain ⟨htoken, hthird⟩ := splitLast_eq_some_iff.mp hlast
    obtain ⟨rfl, hpoint⟩ := splitFirst_eq_some_iff.mp hfirst
    have splits : Splits token first second third := ⟨htoken, hpoint, hthird⟩
    rcases (object_bind_eq_iff hr).mp h with ⟨header, hheader, h⟩ | ⟨message, hdeep, rfl⟩
    · obtain ⟨claims, hclaims, h⟩ := (needed_bind_eq_iff hr).mp h
      obtain ⟨signature, hsignature, h⟩ := (needed_bind_eq_iff hr).mp h
      cases haccepts : acceptsHeader header with
      | false =>
        rw [haccepts] at h
        exact absurd h.symm hr
      | true =>
        rw [haccepts] at h
        have presents : Presents token (first ++ 46 :: second) claims signature :=
          ⟨first, second, third, bytes, header, splits, rfl, hbytes, hheader, haccepts, hclaims,
            hsignature⟩
        cases hkey : Secret.refusal? key with
        | some failure =>
          simp only [hkey, Bool.not_true, Bool.false_eq_true, if_false] at h
          exact h ▸ .refusedKey presents hkey
        | none =>
          simp only [hkey, Bool.not_true, Bool.false_eq_true, if_false] at h
          split at h
          · rename_i hsigned
            rw [← eq_of_beq hsigned] at presents
            rcases (object_eq_iff hr).mp h with ⟨ms, hread, rfl⟩ | ⟨message, hdeep, rfl⟩
            · exact .claims presents hkey hread
            · exact .deepClaims presents hkey hdeep
          · exact absurd h.symm hr
    · exact .deepHeader splits hbytes hdeep
  · intro h
    cases h with
    | deepHeader splits decodes deep =>
      rw [signedClaims, splits.token, splitLast_append splits.third]
      refine (needed_bind_eq_iff hr).mpr ⟨_, rfl, ?_⟩
      dsimp only
      rw [splitFirst_append splits.first]
      refine (needed_bind_eq_iff hr).mpr ⟨_, rfl, ?_⟩
      refine (needed_bind_eq_iff hr).mpr ⟨_, decodes, ?_⟩
      exact (object_bind_eq_iff hr).mpr (.inr ⟨_, deep, rfl⟩)
    | refusedKey presents refused =>
      rw [signedClaims_of_presents presents, refused]
    | deepClaims presents allowed deep =>
      rw [signedClaims_of_presents presents, allowed]
      dsimp only
      rw [if_pos (beq_self_eq_true _)]
      exact (object_eq_iff hr).mpr (.inr ⟨_, deep, rfl⟩)
    | claims presents allowed reads =>
      rw [signedClaims_of_presents presents, allowed]
      dsimp only
      rw [if_pos (beq_self_eq_true _)]
      exact (object_eq_iff hr).mpr (.inl ⟨_, reads, rfl⟩)

end Opening

/-! ## Checks -/

/-- A claim about time that is there and is not after the clock. -/
def HasBegun (now : Instant) (v : Value) : Prop :=
  ∃ i, Event.wholeNumber v = .ok i ∧ isLater i now = false

/-- Claims that pass all checks at a time. -/
structure Passes (now : Instant) (claims : Members) : Prop where
  complete : ∀ claim ∈ requiredClaims, Members.getD claim claims ≠ .null
  issued : HasBegun now (Members.getD "iat" claims)
  first : Members.has "nbf" claims = true → HasBegun now (Members.getD "nbf" claims)
  expires : ∃ i, Event.wholeNumber (Members.getD "exp" claims) = .ok i ∧ isLater i now = true
  audience : (Members.getD "aud" claims).isTruthy = false
  user : ∃ s, Members.getD "sub" claims = .str s
  id : Members.has "jti" claims = true → ∃ s, Members.getD "jti" claims = .str s

section Checks

variable {now : Instant} {claims : Members} {v : Value}

theorem missing?_eq_none_iff :
    missing? claims = none ↔ ∀ claim ∈ requiredClaims, Members.getD claim claims ≠ .null := by
  have hnull : ∀ v : Value, v.isNull = true ↔ v = .null := fun v => by
    cases v <;> simp [Value.isNull]
  simp only [missing?, List.find?_eq_none, hnull, ne_eq]

/-- A check passes where something holds, and rejects elsewhere. -/
def Decides (p : Prop) (check : Except Denial Unit) : Prop :=
  (p ∧ check = .ok ()) ∨ (¬p ∧ ∃ reason, check = .error (.rejected reason))

theorem Decides.and {p q : Prop} {check check' : Except Denial Unit} (h : Decides p check)
    (h' : Decides q check') : Decides (p ∧ q) (do check; check') := by
  rcases h with ⟨hp, rfl⟩ | ⟨hp, reason, rfl⟩
  · rcases h' with ⟨hq, rfl⟩ | ⟨hq, reason, rfl⟩
    · exact .inl ⟨⟨hp, hq⟩, rfl⟩
    · exact .inr ⟨fun h => hq h.2, reason, rfl⟩
  · exact .inr ⟨fun h => hp h.1, reason, rfl⟩

theorem Decides.congr {p q : Prop} {check : Except Denial Unit} (h : Decides p check)
    (hiff : p ↔ q) : Decides q check := by
  rwa [Decides, ← hiff]

/-- A check that is made only under a condition. -/
theorem Decides.ite {p : Prop} {check : Except Denial Unit} (b : Bool) (h : Decides p check) :
    Decides (b = true → p) (if b then check else pure ()) := by
  cases b with
  | false => exact .inl ⟨fun h => absurd h Bool.false_ne_true, rfl⟩
  | true => exact h.congr ⟨fun hp _ => hp, fun hp => hp rfl⟩

theorem decides_reject (b : Bool) :
    Decides (b = false) (if b then throw (.rejected .invalid) else pure ()) := by
  cases b with
  | false => exact .inl ⟨rfl, rfl⟩
  | true => exact .inr ⟨by simp, .invalid, rfl⟩

/-- The check that a time is not after the clock. -/
def checkBegun (now : Instant) (v : Value) : Except Denial Unit := do
  if isLater (← seconds v) now then throw (.rejected .invalid)

/-- The check that a time is after the clock. -/
def checkUnexpired (now : Instant) (v : Value) : Except Denial Unit := do
  if isLater (← seconds v) now then return ()
  throw (.rejected .expired)

theorem decides_checkBegun (now : Instant) (v : Value) :
    Decides (HasBegun now v) (checkBegun now v) := by
  unfold HasBegun checkBegun seconds
  cases hwhole : Event.wholeNumber v with
  | error failure => exact .inr ⟨by simp, .invalid, rfl⟩
  | ok i => exact (decides_reject (isLater i now)).congr (by simp)

theorem decides_checkUnexpired (now : Instant) (v : Value) :
    Decides (∃ i, Event.wholeNumber v = .ok i ∧ isLater i now = true) (checkUnexpired now v) := by
  unfold checkUnexpired seconds
  cases hwhole : Event.wholeNumber v with
  | error failure => exact .inr ⟨by simp, .invalid, rfl⟩
  | ok i =>
    cases hlater : isLater i now with
    | false =>
      refine .inr ⟨by simp [hlater], .expired, ?_⟩
      change (if isLater i now = true then _ else _) = _
      rw [hlater]
      rfl
    | true =>
      refine .inl ⟨⟨i, rfl, hlater⟩, ?_⟩
      change (if isLater i now = true then _ else _) = _
      rw [hlater]
      rfl

theorem checkTimes_eq (now : Instant) (claims : Members) : checkTimes now claims = (do
    checkBegun now (Members.getD "iat" claims)
    (if Members.has "nbf" claims then checkBegun now (Members.getD "nbf" claims) else pure ())
    checkUnexpired now (Members.getD "exp" claims)) := by
  unfold checkTimes checkBegun checkUnexpired
  cases seconds (Members.getD "iat" claims) with
  | error denial => rfl
  | ok issued =>
    simp only [bind, Except.bind]
    cases isLater issued now with
    | true => rfl
    | false =>
      cases Members.has "nbf" claims with
      | false => rfl
      | true =>
        cases seconds (Members.getD "nbf" claims) with
        | error denial => rfl
        | ok first =>
          dsimp only
          cases isLater first now <;> rfl

theorem checkNames_eq (claims : Members) : checkNames claims = (do
    (if (Members.getD "aud" claims).isTruthy then throw (.rejected .invalid) else pure ())
    (if (Members.getD "sub" claims).str?.isNone then throw (.rejected .invalid) else pure ())
    (if Members.has "jti" claims then
      (if (Members.getD "jti" claims).str?.isNone then throw (.rejected .invalid) else pure ())
      else pure ())) := by
  unfold checkNames
  cases (Members.getD "aud" claims).isTruthy <;> cases (Members.getD "sub" claims).str?.isNone <;>
    cases Members.has "jti" claims <;> cases (Members.getD "jti" claims).str?.isNone <;> rfl

theorem isNone_str?_eq_false_iff {v : Value} : v.str?.isNone = false ↔ ∃ s, v = .str s := by
  cases v <;> simp [Value.str?]

/-- The checks let claims pass that have what they look for, and reject all others. -/
theorem decides_checks (now : Instant) (claims : Members) (h : missing? claims = none) :
    Decides (Passes now claims) (do checkTimes now claims; checkNames claims) := by
  rw [checkTimes_eq, checkNames_eq]
  have htimes := (decides_checkBegun now (Members.getD "iat" claims)).and
    (((decides_checkBegun now (Members.getD "nbf" claims)).ite (Members.has "nbf" claims)).and
      (decides_checkUnexpired now (Members.getD "exp" claims)))
  have hnames := (decides_reject (Members.getD "aud" claims).isTruthy).and
    ((decides_reject (Members.getD "sub" claims).str?.isNone).and
      ((decides_reject (Members.getD "jti" claims).str?.isNone).ite (Members.has "jti" claims)))
  simp only [isNone_str?_eq_false_iff] at hnames
  refine (htimes.and hnames).congr ⟨?_, ?_⟩
  · rintro ⟨⟨hissued, hfirst, hexpires⟩, haudience, huser, hid⟩
    exact ⟨missing?_eq_none_iff.mp h, hissued, hfirst, hexpires, haudience, huser, hid⟩
  · rintro ⟨-, hissued, hfirst, hexpires, haudience, huser, hid⟩
    exact ⟨⟨hissued, hfirst, hexpires⟩, haudience, huser, hid⟩

end Checks

/-! ## Describing an operator -/

/-- Microseconds since the epoch that are in the calendar. -/
def InCalendar (micros : Int) : Prop :=
  0 ≤ (Instant.epoch.micros : Int) + micros ∧ (Instant.epoch.micros : Int) + micros < Instant.limit

/-- A number of seconds since the epoch that is in the calendar, to the microsecond. -/
def IsMoment : Value → Prop
  | .int i => InCalendar (i * 1000000)
  | .bool _ => True
  | .float (.finite negative units) =>
    let n : Int := Double.roundHalfEven (units * 1000000) Double.one
    InCalendar (if negative then -n else n)
  | _ => False

/-- Claims that describe an operator: moments of issue and expiry, and texts. -/
structure IsReadable (claims : Members) : Prop where
  expires : IsMoment (Members.getD "exp" claims)
  issued : IsMoment (Members.getD "iat" claims)
  user : ∃ s, Members.getD "sub" claims = .str s
  email : ∃ s, Members.getD "email" claims = .str s
  organization : ∃ s, Members.getD "org_id" claims = .str s
  kind : ∃ s, (Members.get? "type" claims).getD (.str "") = .str s

section Reading

variable {claims : Members} {v : Value}

theorem exists_instantAt_iff {micros : Int} :
    (∃ t, instantAt micros = .ok t) ↔ InCalendar micros := by
  by_cases hcalendar : InCalendar micros
  · have hfound : Instant.ofUnixMicros? micros = some _ := if_pos hcalendar
    simp only [instantAt, hfound, hcalendar, iff_true]
    exact ⟨_, rfl⟩
  · have hnone : Instant.ofUnixMicros? micros = none := if_neg hcalendar
    refine iff_of_false ?_ hcalendar
    rintro ⟨t, h⟩
    simp only [instantAt, hnone] at h
    split at h
    · cases h
    · split at h <;> cases h

theorem exists_instant_iff : (∃ t, instant v = .ok t) ↔ IsMoment v := by
  cases v with
  | int i => exact exists_instantAt_iff
  | bool b =>
    refine iff_of_true (exists_instantAt_iff.mpr ?_) trivial
    cases b <;> exact ⟨by decide, by decide⟩
  | float d =>
    cases d with
    | nan | infinite => simp [instant, IsMoment]
    | finite negative units => exact exists_instantAt_iff
  | null | str | list | obj => simp [instant, IsMoment]

theorem exists_textOf_iff {claim : String} : (∃ s, textOf claim v = .ok s) ↔ ∃ s, v = .str s := by
  cases v <;> simp [textOf]

/-- The operator is read from claims that describe one. -/
theorem exists_identity_iff : (∃ i, identity claims = .ok i) ↔ IsReadable claims := by
  constructor
  · rintro ⟨i, h⟩
    unfold identity at h
    cases hexpires : instant (Members.getD "exp" claims) with
    | error failure =>
      rw [hexpires] at h
      cases h
    | ok expires =>
      cases hissued : instant (Members.getD "iat" claims) with
      | error failure =>
        rw [hexpires, hissued] at h
        cases h
      | ok issued =>
        simp only [hexpires, hissued, bind, Except.bind] at h
        split at h
        · rename_i user email organization kind huser hemail horganization hkind
          exact ⟨exists_instant_iff.mp ⟨_, hexpires⟩, exists_instant_iff.mp ⟨_, hissued⟩,
            exists_textOf_iff.mp ⟨_, huser⟩, exists_textOf_iff.mp ⟨_, hemail⟩,
            exists_textOf_iff.mp ⟨_, horganization⟩, exists_textOf_iff.mp ⟨_, hkind⟩⟩
        · cases h
  · intro h
    obtain ⟨expires, hexpires⟩ := exists_instant_iff.mpr h.expires
    obtain ⟨issued, hissued⟩ := exists_instant_iff.mpr h.issued
    obtain ⟨user, huser⟩ := h.user
    obtain ⟨email, hemail⟩ := h.email
    obtain ⟨organization, horganization⟩ := h.organization
    obtain ⟨kind, hkind⟩ := h.kind
    refine ⟨⟨user, email, organization, expires, issued, kind⟩, ?_⟩
    simp only [identity, hexpires, hissued, huser, hemail, horganization, hkind, textOf, bind,
      Except.bind, pure, Except.pure]

end Reading

/-! ## Judging tokens -/

/-- Looking at a token fails: while it is opened, or since its claims, which pass all checks,
describe no operator. -/
inductive Stumbles (key : String) (now : Instant) (token : String) : Prop
  | opening {failure : Failure} (opens : Opens key token (.error (.failed failure)))
  | describing {claims : Members} (opens : Opens key token (.ok claims))
    (passes : Passes now claims) (unreadable : ¬IsReadable claims)

section Judging

variable {key token : String} {now : Instant} {claims : Members}

theorem verify_of_error {denial : Denial} (h : signedClaims key token = .error denial) :
    verify key now token = .error denial := by
  rw [verify, h]
  rfl

/-- Claims that pass all checks are read. -/
theorem verify_of_passes (h : signedClaims key token = .ok claims) (passes : Passes now claims) :
    verify key now token = (identity claims).mapError .failed := by
  have hcomplete := missing?_eq_none_iff.mpr passes.complete
  have hchecks : (do checkTimes now claims; checkNames claims) = Except.ok () := by
    rcases decides_checks now claims hcomplete with ⟨-, hchecks⟩ | ⟨hother, -⟩
    · exact hchecks
    · exact absurd passes hother
  rw [verify, h]
  simp only [bind, Except.bind, hcomplete] at hchecks ⊢
  cases htimes : checkTimes now claims with
  | error denial =>
    rw [htimes] at hchecks
    cases hchecks
  | ok =>
    rw [htimes] at hchecks
    simp only [hchecks]

/-- Claims that do not pass are rejected. -/
theorem exists_rejection_of_not_passes (h : signedClaims key token = .ok claims)
    (other : ¬Passes now claims) : ∃ reason, verify key now token = .error (.rejected reason) := by
  rw [verify, h]
  cases hmissing : missing? claims with
  | some claim => exact ⟨.missing claim, by simp only [bind, Except.bind, hmissing]; rfl⟩
  | none =>
    rcases decides_checks now claims hmissing with ⟨hpasses, -⟩ | ⟨-, reason, hchecks⟩
    · exact absurd hpasses other
    · refine ⟨reason, ?_⟩
      simp only [bind, Except.bind, hmissing] at hchecks ⊢
      cases htimes : checkTimes now claims with
      | error denial =>
        rw [htimes] at hchecks
        rw [Except.error.inj hchecks]
      | ok =>
        rw [htimes] at hchecks
        simp only [hchecks]

theorem stumbles_iff :
    Stumbles key now token ↔ ∃ failure, verify key now token = .error (.failed failure) := by
  constructor
  · rintro (opens | ⟨opens, passes, unreadable⟩)
    · exact ⟨_, verify_of_error ((signedClaims_eq_iff (by simp)).mpr opens)⟩
    · rw [verify_of_passes ((signedClaims_eq_iff (by simp)).mpr opens) passes]
      cases hread : identity _ with
      | ok operator => exact absurd (exists_identity_iff.mp ⟨operator, hread⟩) unreadable
      | error failure => exact ⟨failure, rfl⟩
  · -- What is opened is rejected unless it passes, so that only describing the operator can fail.
    rintro ⟨failure, h⟩
    cases hopen : signedClaims key token with
    | error denial =>
      rw [verify_of_error hopen] at h
      cases h
      exact .opening ((signedClaims_eq_iff (by simp)).mp hopen)
    | ok claims =>
      have opens := (signedClaims_eq_iff (by simp)).mp hopen
      by_cases passes : Passes now claims
      · refine .describing opens passes fun readable => ?_
        obtain ⟨operator, hread⟩ := exists_identity_iff.mpr readable
        rw [verify_of_passes hopen passes, hread] at h
        cases h
      · obtain ⟨reason, hreason⟩ := exists_rejection_of_not_passes hopen passes
        rw [hreason] at h
        cases h

theorem exists_verify_iff : (∃ operator, verify key now token = .ok operator) ↔
    ∃ claims, Opens key token (.ok claims) ∧ Passes now claims ∧ IsReadable claims := by
  constructor
  · rintro ⟨operator, h⟩
    cases hopen : signedClaims key token with
    | error denial =>
      rw [verify_of_error hopen] at h
      cases h
    | ok claims =>
      by_cases passes : Passes now claims
      · refine ⟨claims, (signedClaims_eq_iff (by simp)).mp hopen, passes,
          exists_identity_iff.mp ?_⟩
        rw [verify_of_passes hopen passes] at h
        cases hread : identity claims with
        | ok operator => exact ⟨operator, rfl⟩
        | error failure =>
          rw [hread] at h
          cases h
      · obtain ⟨reason, hreason⟩ := exists_rejection_of_not_passes hopen passes
        rw [hreason] at h
        cases h
  · rintro ⟨claims, opens, passes, readable⟩
    obtain ⟨operator, hread⟩ := exists_identity_iff.mpr readable
    refine ⟨operator, ?_⟩
    rw [verify_of_passes ((signedClaims_eq_iff (by simp)).mpr opens) passes, hread]
    rfl

end Judging

/-- Every token is accepted or rejected, but for those that stumble; those are accepted that are
opened to claims which pass all checks and describe an operator. -/
theorem verify_answers_iff (key : String) (now : Instant) (token : String) :
    (((∃ operator, verify key now token = .ok operator) ∨
      ∃ reason, verify key now token = .error (.rejected reason)) ↔ ¬Stumbles key now token) ∧
    ((∃ operator, verify key now token = .ok operator) ↔
      ∃ claims, Opens key token (.ok claims) ∧ Passes now claims ∧ IsReadable claims) := by
  refine ⟨?_, exists_verify_iff⟩
  rw [stumbles_iff]
  constructor
  · rintro (⟨operator, h⟩ | ⟨reason, h⟩) ⟨failure, hfailed⟩
    · rw [h] at hfailed
      cases hfailed
    · rw [h] at hfailed
      cases hfailed
  · intro h
    cases hverify : verify key now token with
    | ok operator => exact .inl ⟨operator, rfl⟩
    | error denial =>
      cases denial with
      | rejected reason => exact .inr ⟨reason, rfl⟩
      | failed failure => exact absurd ⟨failure, hverify⟩ h

/-- Claims of an operator with some e-mail address, valid until some second. -/
def claimsOf (email : Value) (expires : Int) : Members :=
  [("sub", .str "user-1"), ("email", email), ("org_id", .str "org-1"),
    ("iat", .int morning.unixSeconds), ("exp", .int expires)]

/-- Signed claims with a number for an e-mail address, or with the year after the last for the end,
cannot be judged. -/
theorem numbered_email_stumbles :
    verify "secret" morning (encode .hs256 "secret" (claimsOf (.int 5) 1736157600)) =
      .error (.failed (Misfit.failure "TokenPayload" [.notText "email" (.int 5)])) ∧
    verify "secret" morning
        (encode .hs256 "secret" (claimsOf (.str "ops@example.com") 253402300800)) =
      .error (.failed (.system .valueError "year 10000 is out of range")) := by
  have exact : ∀ (email : Value) (expires : Int), email.IsExact → expires.natAbs < 10 ^ 12 →
      (Value.obj (claimsOf email expires)).IsExact := fun email expires hemail hexpires =>
    ⟨⟨trivial, hemail, trivial, Value.isExact_int (by decide), Value.isExact_int hexpires, trivial⟩,
      by simp [claimsOf]⟩
  constructor
  · rw [verify, signedClaims_encode refusal?_secret
      (exact (.int 5) 1736157600 (Value.isExact_int (by decide)) (by decide)) (by decide)]
    rfl
  · rw [verify, signedClaims_encode refusal?_secret
      (exact (.str "ops@example.com") 253402300800 trivial (by decide)) (by decide)]
    rfl

end CrmAutomation.Token
