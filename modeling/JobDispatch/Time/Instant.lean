import JobDispatch.Time.Calendar
set_option autoImplicit false

/- Points in time, to the nanosecond, inside the calendar from -262143-01-01 to +262142-12-31.
A leap second is told apart from the second before it by nanoseconds beyond one thousand million. -/
namespace JobDispatch.Time

def firstSecond : Int := -8334601228800

def lastSecond : Int := 8210266876799

theorem firstSecond_eq : firstSecond = (Date.mk (-262143) 1 1).dayNumber * 86400 := by decide

theorem lastSecond_eq : lastSecond = (Date.mk 262142 12 31).dayNumber * 86400 + 86399 := by decide

/-- A point in time: seconds since 1970-01-01T00:00:00Z and nanoseconds after them. -/
structure Instant where
  seconds : Int
  nanos : Nat
  inCalendar : firstSecond ≤ seconds ∧ seconds ≤ lastSecond := by decide
  inSecond : nanos < 1000000000 ∨ (nanos < 2000000000 ∧ seconds % 60 = 59) := by decide
deriving DecidableEq, Repr

namespace Instant

/-- The instant with these parts, if there is one. -/
def ofParts? (seconds : Int) (nanos : Nat) : Option Instant :=
  if h : (firstSecond ≤ seconds ∧ seconds ≤ lastSecond) ∧
      (nanos < 1000000000 ∨ (nanos < 2000000000 ∧ seconds % 60 = 59)) then
    some ⟨seconds, nanos, h.1, h.2⟩
  else none

@[simp] theorem ofParts?_parts (t : Instant) : ofParts? t.seconds t.nanos = some t := by
  simp [ofParts?, t.inCalendar, t.inSecond]

/-- The instant so many nanoseconds after 1970-01-01T00:00:00Z, if the calendar holds it. -/
def ofNanos? (total : Int) : Option Instant :=
  ofParts? (total / 1000000000) (total % 1000000000).toNat

/-- Nanoseconds since 1970-01-01T00:00:00Z; a leap second counts like the second after it. -/
def totalNanos (t : Instant) : Int := t.seconds * 1000000000 + t.nanos

def isLeap (t : Instant) : Bool := decide (1000000000 ≤ t.nanos)

/-- The order of time; a leap second lies after the second before it. -/
def before (t u : Instant) : Bool :=
  decide (t.seconds < u.seconds) || (decide (t.seconds = u.seconds) && decide (t.nanos < u.nanos))

def secondOfDay (t : Instant) : Int := t.seconds % 86400

/-- Nanoseconds from `earlier` to `t`. A leap second is counted between two times of day when it
lies behind the lesser of them. -/
def since (t earlier : Instant) : Int :=
  let leap : Int :=
    if earlier.secondOfDay < t.secondOfDay ∧ earlier.isLeap then 1
    else if t.secondOfDay < earlier.secondOfDay ∧ t.isLeap then -1
    else 0
  (t.seconds - earlier.seconds + leap) * 1000000000 + ((t.nanos : Int) - earlier.nanos)

/-- The instant a span of nanoseconds earlier, if the calendar reaches back so far. -/
def minus? (t : Instant) (span : Nat) : Option Instant :=
  if span ≤ t.nanos then ofParts? t.seconds (t.nanos - span)
  else ofNanos? (t.totalNanos - span)

/-- The instant a span of nanoseconds later, if the calendar reaches so far. -/
def plus? (t : Instant) (span : Nat) : Option Instant := ofNanos? (t.totalNanos + span)

end Instant

end JobDispatch.Time
