set_option autoImplicit false

namespace JobDispatch.Time

/-- Every fourth year is a leap year, of the centuries every fourth one only. -/
def isLeapYear (year : Int) : Bool :=
  decide (year % 4 = 0) && (decide (year % 100 ≠ 0) || decide (year % 400 = 0))

/-- The days from the first day of year zero to the first day of a year. -/
def daysBeforeYear (year : Int) : Int :=
  365 * year + (year + 3) / 4 - (year + 99) / 100 + (year + 399) / 400

theorem daysBeforeYear_succ (year : Int) :
    daysBeforeYear (year + 1) = daysBeforeYear year + if isLeapYear year then 366 else 365 := by
  unfold daysBeforeYear isLeapYear
  split <;> rename_i h <;>
    simp only [Bool.and_eq_true, Bool.or_eq_true, decide_eq_true_eq] at h <;> omega

def monthLengths (leap : Bool) : List Nat :=
  [31, if leap then 29 else 28, 31, 30, 31, 30, 31, 31, 30, 31, 30, 31]

def daysIn (lengths : List Nat) : Nat := lengths.foldr (· + ·) 0

structure Date where
  year : Int
  month : Nat
  day : Nat
deriving DecidableEq, Repr

namespace Date

/-- The month has such a day. -/
def isValid (date : Date) : Bool :=
  decide (1 ≤ date.month) && decide (1 ≤ date.day) &&
    decide (date.day ≤ (monthLengths (isLeapYear date.year)).getD (date.month - 1) 0)

/-- The days of the year before the date's own day. -/
def dayOfYear (date : Date) : Nat :=
  daysIn ((monthLengths (isLeapYear date.year)).take (date.month - 1)) + (date.day - 1)

/-- The days since 1970-01-01. -/
def dayNumber (date : Date) : Int := daysBeforeYear date.year - 719528 + date.dayOfYear

end Date

/-- The year that holds a day counted from the first day of year zero. -/
def yearOfDay (day : Int) : Int :=
  let estimate := 400 * day / 146097
  if day < daysBeforeYear estimate then estimate - 1
  else if daysBeforeYear (estimate + 1) ≤ day then estimate + 1
  else estimate

theorem daysBeforeYear_yearOfDay (day : Int) :
    daysBeforeYear (yearOfDay day) ≤ day ∧ day < daysBeforeYear (yearOfDay day + 1) := by
  unfold yearOfDay daysBeforeYear
  dsimp only
  split
  · simp only [Int.sub_add_cancel]
    omega
  · split <;> omega

/-- The month, counted from zero, and the day in it, counted from zero, of a day of the year. -/
def splitMonths : List Nat → Nat → Nat × Nat
  | [], day => (0, day)
  | length :: lengths, day =>
    if day < length then (0, day)
    else ((splitMonths lengths (day - length)).1 + 1, (splitMonths lengths (day - length)).2)

/-- The date that is so many days after 1970-01-01. -/
def Date.ofDayNumber (number : Int) : Date :=
  let day := number + 719528
  let year := yearOfDay day
  let parts := splitMonths (monthLengths (isLeapYear year)) (day - daysBeforeYear year).toNat
  ⟨year, parts.1 + 1, parts.2 + 1⟩

end JobDispatch.Time
