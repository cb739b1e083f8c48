import CrmAutomation.Failure

/-!
# Instants

Points in time, in UTC to the microsecond, from the beginning of year 1 to the end of year
9999. `Instant.isoText` writes one, `Instant.addMinutes` moves one and fails where the result
or the duration is out of range.
-/

namespace CrmAutomation

/-- The number of microseconds since the beginning of year 1. -/
structure Instant where
  micros : Nat
  deriving DecidableEq, Repr, Inhabited, Ord

namespace Instant

def microsPerSecond : Nat := 1000000

def microsPerMinute : Nat := 60 * microsPerSecond

def microsPerDay : Nat := 1440 * microsPerMinute

/-- The number of days in years 1 to 9999. -/
def dayLimit : Nat := 3652059

/-- The microseconds from the first instant to the end of the last year. -/
def limit : Nat := dayLimit * microsPerDay

/-- The number of days before the first day of a year. -/
def daysBeforeYear (year : Nat) : Nat :=
  let y := year - 1
  y * 365 + y / 4 - y / 100 + y / 400

def isLeap (year : Nat) : Bool := year % 4 == 0 && (year % 100 != 0 || year % 400 == 0)

/-- The lengths of the months of a year. -/
def monthLengths (year : Nat) : List Nat :=
  [31, if isLeap year then 29 else 28, 31, 30, 31, 30, 31, 31, 30, 31, 30, 31]

/-- The month and the day of the month of the `n`-th day, months counted from `month`. -/
def monthAndDay (month : Nat) (n : Nat) : List Nat → Nat × Nat
  | [] => (month, n + 1)
  | len :: rest => if n < len then (month, n + 1) else monthAndDay (month + 1) (n - len) rest

/-- The year, month and day of a day, days being counted from the first day of year 1. -/
def civil (days : Nat) : Nat × Nat × Nat :=
  let n400 := days / 146097
  let r400 := days % 146097
  let n100 := min (r400 / 36524) 3
  let r100 := r400 - n100 * 36524
  let n4 := r100 / 1461
  let r4 := r100 % 1461
  let n1 := min (r4 / 365) 3
  let year := n400 * 400 + n100 * 100 + n4 * 4 + n1 + 1
  let (month, day) := monthAndDay 1 (r4 - n1 * 365) (monthLengths year)
  (year, month, day)

/-- An instant by its date and time of day. -/
def ofCivil (year month day hour minute second : Nat) : Instant :=
  let days := daysBeforeYear year + ((monthLengths year).take (month - 1)).foldr (· + ·) 0 + (day - 1)
  ⟨days * microsPerDay + (hour * 60 + minute) * microsPerMinute + second * microsPerSecond⟩

/-- A number with zeros in front up to `width` digits. -/
def padded (width n : Nat) : String :=
  let s := toString n
  "".pushn '0' (width - s.length) ++ s

/-- The date and time as `YYYY-MM-DDTHH:MM:SS`, with six more digits unless they are zero. -/
def isoText (t : Instant) : String :=
  let (year, month, day) := civil (t.micros / microsPerDay)
  let inDay := t.micros % microsPerDay
  let seconds := inDay / microsPerSecond
  let fraction := inDay % microsPerSecond
  padded 4 year ++ "-" ++ padded 2 month ++ "-" ++ padded 2 day ++ "T"
    ++ padded 2 (seconds / 3600) ++ ":" ++ padded 2 (seconds / 60 % 60) ++ ":"
    ++ padded 2 (seconds % 60)
    ++ (if fraction = 0 then "" else "." ++ padded 6 fraction)

/-- The beginning of the epoch from which time stamps in tokens and signatures count. -/
def epoch : Instant := ofCivil 1970 1 1 0 0 0

/-- Whole seconds since the epoch. -/
def unixSeconds (t : Instant) : Int := (t.micros / microsPerSecond : Nat) - (epoch.micros / microsPerSecond : Nat)

/-- The instant a number of microseconds after the epoch, if it is in range. -/
def ofUnixMicros? (micros : Int) : Option Instant :=
  let n := (epoch.micros : Int) + micros
  if 0 ≤ n ∧ n < limit then some ⟨n.toNat⟩ else none

/-- The year of a number of seconds since the epoch, with years before 1 and after 9999. The calendar
repeats itself after 400 years. -/
def yearOf (seconds : Int) : Int :=
  let days := (seconds + unixSecondsOfFirst).fdiv 86400
  400 * days.fdiv 146097 + (civil (days.fmod 146097).toNat).1
where
  unixSecondsOfFirst : Int := (epoch.micros / microsPerSecond : Nat)

/-- The instant a number of microseconds later; earlier ones end at the first instant. -/
def later (t : Instant) (micros : Int) : Instant := ⟨((t.micros : Int) + micros).toNat⟩

/-- The instant a number of seconds later. -/
def laterSeconds (t : Instant) (seconds : Int) : Instant := t.later (seconds * microsPerSecond)

/-- The greatest length of a duration in days. -/
def maxDurationDays : Int := 999999999

/-- The instant that is `count` units later, of which `unitsPerDay` make a day. A duration of too many
days, and a result outside the years 1 to 9999, overflow. -/
def addUnits (unitsPerDay : Nat) (t : Instant) (count : Int) : Except Failure Instant :=
  let days := count.fdiv unitsPerDay
  if days < -2147483648 ∨ 2147483647 < days then
    .error (.system .overflow "Python int too large to convert to C int")
  else if days < -maxDurationDays ∨ maxDurationDays < days then
    .error (.system .overflow ("days=" ++ toString days ++ "; must have magnitude <= "
      ++ toString maxDurationDays))
  else
    let micros := (t.micros : Int) + count * (microsPerDay / unitsPerDay : Nat)
    if 0 ≤ micros ∧ micros < limit then .ok ⟨micros.toNat⟩
    else .error (.system .overflow "date value out of range")

/-- The instant `minutes` minutes later. -/
def addMinutes : Instant → Int → Except Failure Instant := addUnits 1440

/-- The instant `seconds` seconds later. -/
def addSeconds : Instant → Int → Except Failure Instant := addUnits 86400

/-- Whether an instant is not after another. -/
def notAfter (a b : Instant) : Bool := decide (a.micros ≤ b.micros)

/-- Whether an instant is before another. -/
def before (a b : Instant) : Bool := decide (a.micros < b.micros)

end Instant

end CrmAutomation
