import CrmAutomation.Proofs.Access.Signing

/-!
# How long tokens are valid

A token is read back as the operator that it was issued to, until its lifetime has passed
(`verify_issued`). The lifetime is the one that was asked for, in whole seconds, where zero seconds
stand for the default (`lifetime`): a token that is asked to be valid for no time is valid for a day
(`valid_though_asked_for_no_time`).
-/

namespace CrmAutomation.Token

variable {key user email organization : String} {now later : Instant} {issued expires : Int}

/-! ## Claims of operators -/

/-- The claims of a token that gives access. -/
def accessClaims (user email organization : String) (issued expires : Int) : Members :=
  [("sub", .str user), ("email", .str email), ("org_id", .str organization),
    ("type", .str accessKind), ("iat", .int issued), ("exp", .int expires)]

/-- The second of an instant that `seconds` since the epoch stand for. -/
def instantOf (seconds : Int) : Instant :=
  ⟨((Instant.epoch.micros : Int) + seconds * Instant.microsPerSecond).toNat⟩

/-- Seconds since the epoch that are in the calendar. -/
def IsCivil (seconds : Int) : Prop :=
  0 ≤ (Instant.epoch.micros : Int) + seconds * Instant.microsPerSecond ∧
    (Instant.epoch.micros : Int) + seconds * Instant.microsPerSecond < Instant.limit

theorem isExact_of_isCivil {seconds : Int} (h : IsCivil seconds) : (Value.int seconds).IsExact := by
  have epoch : (Instant.epoch.micros : Int) = 62135596800000000 := by decide
  have limit : (Instant.limit : Int) = 315537897600000000 := by decide
  simp only [IsCivil, epoch, limit, Instant.microsPerSecond] at h
  exact Value.isExact_int (by omega)

theorem instant_of_isCivil {seconds : Int} (h : IsCivil seconds) :
    instant (.int seconds) = .ok (instantOf seconds) := by
  have found : Instant.ofUnixMicros? (seconds * 1000000) = some (instantOf seconds) := if_pos h
  simp only [instant, instantAt, found]

/-- A token without a first second is valid from the second of issue on until it expires. -/
theorem checkTimes_of_started (claims : Members)
    (hissued : Members.getD "iat" claims = .int issued)
    (hexpires : Members.getD "exp" claims = .int expires)
    (hfirst : Members.has "nbf" claims = false) (started : isLater issued later = false) :
    checkTimes later claims
      = if isLater expires later then .ok () else .error (.rejected .expired) := by
  have whole (i : Int) : seconds (.int i) = .ok i := rfl
  simp only [checkTimes, hissued, hexpires, hfirst, whole, started, bind, Except.bind,
    Bool.false_eq_true, if_false, pure, Except.pure]
  cases isLater expires later <;> rfl

theorem identity_accessClaims (hissued : IsCivil issued) (hexpires : IsCivil expires) :
    identity (accessClaims user email organization issued expires)
      = .ok ⟨user, email, organization, instantOf expires, instantOf issued, accessKind⟩ := by
  have first : instant (Members.getD "exp" (accessClaims user email organization issued expires))
      = .ok (instantOf expires) := instant_of_isCivil hexpires
  have second : instant (Members.getD "iat" (accessClaims user email organization issued expires))
      = .ok (instantOf issued) := instant_of_isCivil hissued
  simp only [identity, first, second, bind, Except.bind]
  rfl

/-- Claims of an operator that were issued are read back until they expire. -/
theorem verify_encode_accessClaims (hkey : Secret.refusal? key = none) (hissued : IsCivil issued)
    (hexpires : IsCivil expires) (started : isLater issued later = false) :
    verify key later (encode .hs256 key (accessClaims user email organization issued expires)) =
      if isLater expires later then
        .ok ⟨user, email, organization, instantOf expires, instantOf issued, accessKind⟩
      else .error (.rejected .expired) := by
  have exact : (Value.obj (accessClaims user email organization issued expires)).IsExact :=
    ⟨⟨trivial, trivial, trivial, trivial, isExact_of_isCivil hissued, isExact_of_isCivil hexpires,
      trivial⟩, by simp [accessClaims]⟩
  have shallow : (Value.obj (accessClaims user email organization issued expires)).depth = 1 := rfl
  have complete : missing? (accessClaims user email organization issued expires) = none := rfl
  have times := checkTimes_of_started (accessClaims user email organization issued expires)
    rfl rfl rfl started
  have names : checkNames (accessClaims user email organization issued expires) = .ok () := rfl
  rw [verify, signedClaims_encode hkey exact (by rw [shallow]; decide)]
  simp only [bind, Except.bind, complete, times, names, identity_accessClaims hissued hexpires]
  cases isLater expires later <;> rfl

/-! ## Issuing -/

/-- How many seconds a token is valid for which some were asked: zero stands for the default. -/
def lifetime (defaultMinutes seconds : Int) : Int :=
  if seconds = 0 then defaultMinutes * 60 else seconds

/-- Some seconds later than an instant the calendar has not ended, nor has it yet to begin. -/
def CanLast (now : Instant) (seconds : Int) : Prop :=
  0 ≤ (now.micros : Int) + seconds * Instant.microsPerSecond ∧
    (now.micros : Int) + seconds * Instant.microsPerSecond < Instant.limit

theorem unixSeconds_of_canLast {seconds : Int} (h : CanLast now seconds) :
    Instant.unixSeconds ⟨((now.micros : Int) + seconds * Instant.microsPerSecond).toNat⟩
      = now.unixSeconds + seconds := by
  simp only [CanLast, Instant.unixSeconds, Instant.microsPerSecond] at h ⊢
  omega

theorem isCivil_of_canLast {seconds : Int} (h : CanLast now seconds) :
    IsCivil (now.unixSeconds + seconds) := by
  have epoch : Instant.epoch.micros = 62135596800000000 := by decide
  have limit : Instant.limit = 315537897600000000 := by decide
  simp only [CanLast, IsCivil, Instant.unixSeconds, epoch, limit, Instant.microsPerSecond] at h ⊢
  omega

/-- Whether seconds since the epoch are after the clock can be told from its seconds. -/
theorem isLater_iff {seconds : Int} :
    isLater seconds later = true ↔ later.unixSeconds < seconds := by
  have epoch : Instant.epoch.micros = 62135596800000000 := by decide
  simp only [isLater, decide_eq_true_eq, Instant.unixSeconds, epoch, Instant.microsPerSecond]
  omega

theorem unixSeconds_mono (h : now.micros ≤ later.micros) : now.unixSeconds ≤ later.unixSeconds := by
  simp only [Instant.unixSeconds, Instant.microsPerSecond]
  omega

/-- A token can be issued if its lifetime ends in the calendar. -/
theorem issue_eq (defaultMinutes : Int) {seconds : Int} (hkey : Secret.refusal? key = none)
    (hlast : CanLast now (lifetime defaultMinutes seconds)) :
    issue key now defaultMinutes user email organization (some seconds)
      = .ok (encode .hs256 key (accessClaims user email organization now.unixSeconds
        (now.unixSeconds + lifetime defaultMinutes seconds))) := by
  rw [← unixSeconds_of_canLast hlast]
  refine (if_pos hlast).trans ?_
  rw [signWith, hkey]
  rfl

/-- After its issue a token is read back as the operator it was issued to until as many seconds have
passed as it is valid for. -/
theorem verify_issued (defaultMinutes : Int) (user email organization : String) {seconds : Int}
    (hkey : Secret.refusal? key = none) (hnow : now.micros < Instant.limit)
    (hlast : CanLast now (lifetime defaultMinutes seconds)) (hlater : now.micros ≤ later.micros) :
    ∃ token, issue key now defaultMinutes user email organization (some seconds) = .ok token ∧
      verify key later token =
        if later.unixSeconds < now.unixSeconds + lifetime defaultMinutes seconds then
          .ok ⟨user, email, organization,
            instantOf (now.unixSeconds + lifetime defaultMinutes seconds),
            instantOf now.unixSeconds, accessKind⟩
        else .error (.rejected .expired) := by
  have here : CanLast now 0 := ⟨by omega, by simpa using Int.ofNat_lt.mpr hnow⟩
  have civil : IsCivil now.unixSeconds := by simpa using isCivil_of_canLast here
  have started : isLater now.unixSeconds later = false := by
    rw [Bool.eq_false_iff, ne_eq, isLater_iff]
    exact Int.not_lt.mpr (unixSeconds_mono hlater)
  refine ⟨_, issue_eq defaultMinutes hkey hlast, ?_⟩
  rw [verify_encode_accessClaims hkey civil (isCivil_of_canLast hlast) started]
  simp only [isLater_iff]

theorem unixSeconds_laterSeconds (now : Instant) (wait : Nat) :
    (now.laterSeconds wait).unixSeconds = now.unixSeconds + wait := by
  simp only [Instant.laterSeconds, Instant.later, Instant.unixSeconds, Instant.microsPerSecond]
  omega

/-- After some whole seconds a token is valid exactly if its lifetime is longer. -/
theorem valid_iff_lt_lifetime (key : String) (now : Instant) (defaultMinutes : Int)
    (user email organization : String) (seconds : Int) (wait : Nat)
    (hkey : Secret.refusal? key = none) (hnow : now.micros < Instant.limit)
    (hlast : CanLast now (lifetime defaultMinutes seconds)) :
    ∃ token, issue key now defaultMinutes user email organization (some seconds) = .ok token ∧
      verify key (now.laterSeconds wait) token =
        if wait < lifetime defaultMinutes seconds then
          .ok ⟨user, email, organization,
            instantOf (now.unixSeconds + lifetime defaultMinutes seconds),
            instantOf now.unixSeconds, accessKind⟩
        else .error (.rejected .expired) := by
  have hlater : now.micros ≤ (now.laterSeconds wait).micros := by
    simp only [Instant.laterSeconds, Instant.later, Instant.microsPerSecond]
    omega
  obtain ⟨token, hissue, hverify⟩ := verify_issued defaultMinutes user email organization hkey
    hnow hlast hlater
  refine ⟨token, hissue, hverify.trans ?_⟩
  rw [unixSeconds_laterSeconds]
  simp only [Int.add_lt_add_iff_left]

/-- A morning to issue tokens at. -/
def morning : Instant := .ofCivil 2025 1 6 9 0 0

theorem refusal?_secret : Secret.refusal? "secret" = none := by decide +kernel

theorem valid_iff_lt_lifetime_of_minute :
    Secret.refusal? "secret" = none ∧ morning.micros < Instant.limit ∧
    CanLast morning (lifetime defaultLifetimeMinutes 60) ∧
    ∃ token, issue "secret" morning defaultLifetimeMinutes "user-1" "ops@example.com" "org-1"
        (some 60) = .ok token ∧
      verify "secret" (morning.laterSeconds 60) token = .error (.rejected .expired) := by
  have hnow : morning.micros < Instant.limit := by decide
  have hlast : CanLast morning (lifetime defaultLifetimeMinutes 60) := ⟨by decide, by decide⟩
  obtain ⟨token, hissue, hverify⟩ := valid_iff_lt_lifetime "secret" morning defaultLifetimeMinutes
    "user-1" "ops@example.com" "org-1" 60 60 refusal?_secret hnow hlast
  exact ⟨refusal?_secret, hnow, hlast, token, hissue, hverify.trans (if_neg (by decide))⟩

/-- A token that is asked to be valid for no time is valid. -/
theorem valid_though_asked_for_no_time :
    ∃ token, issue "secret" morning defaultLifetimeMinutes "user-1" "ops@example.com" "org-1"
        (some 0) = .ok token ∧
      ∃ identity, verify "secret" (morning.laterSeconds 0) token = .ok identity := by
  have hlast : CanLast morning (lifetime defaultLifetimeMinutes 0) := ⟨by decide, by decide⟩
  have hlater : morning.micros ≤ (morning.laterSeconds 0).micros := by decide
  obtain ⟨token, hissue, hverify⟩ := verify_issued defaultLifetimeMinutes "user-1"
    "ops@example.com" "org-1" refusal?_secret (by decide) hlast hlater
  exact ⟨token, hissue, _, hverify.trans (if_pos (by decide))⟩

end CrmAutomation.Token
