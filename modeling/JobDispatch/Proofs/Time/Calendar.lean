import JobDispatch.Time.Calendar
set_option autoImplicit false

namespace JobDispatch.Time

@[simp] theorem daysIn_nil : daysIn [] = 0 := rfl

theorem daysIn_cons (length : Nat) (lengths : List Nat) :
    daysIn (length :: lengths) = length + daysIn lengths := rfl

/-- A day of the year lies in one of the months, and the months before it make up the rest. -/
theorem splitMonths_spec (lengths : List Nat) (day : Nat) (within : day < daysIn lengths) :
    (splitMonths lengths day).1 < lengths.length ∧
      (splitMonths lengths day).2 < lengths.getD (splitMonths lengths day).1 0 ∧
      daysIn (lengths.take (splitMonths lengths day).1) + (splitMonths lengths day).2 = day := by
  induction lengths generalizing day with
  | nil => exact absurd within (Nat.not_lt_zero day)
  | cons length lengths ih =>
    by_cases here : day < length
    · simp [splitMonths, here]
    · have rest : day - length < daysIn lengths := by
        rw [daysIn_cons] at within
        omega
      obtain ⟨month, inMonth, total⟩ := ih (day - length) rest
      simp only [splitMonths, here, if_false, List.length_cons, List.getD_cons_succ,
        List.take_succ_cons, daysIn_cons]
      exact ⟨by omega, inMonth, by omega⟩

theorem daysIn_monthLengths (leap : Bool) :
    daysIn (monthLengths leap) = if leap then 366 else 365 := by
  cases leap <;> decide

theorem length_monthLengths (leap : Bool) : (monthLengths leap).length = 12 := rfl

theorem monthLengths_le (leap : Bool) (month : Nat) : (monthLengths leap).getD month 0 ≤ 31 := by
  by_cases known : month < 12
  · have each : ∀ leap : Bool, ∀ month < 12, (monthLengths leap).getD month 0 ≤ 31 := by decide
    exact each leap month known
  · have beyond : (monthLengths leap)[month]? = none :=
      List.getElem?_eq_none (by rw [length_monthLengths]; omega)
    simp [List.getD, beyond]

/-- The parts of the date that has a day number, as the number was split. -/
theorem ofDayNumber_spec (number : Int) :
    1 ≤ (Date.ofDayNumber number).month ∧ (Date.ofDayNumber number).month ≤ 12 ∧
      1 ≤ (Date.ofDayNumber number).day ∧
      (Date.ofDayNumber number).day ≤
        (monthLengths (isLeapYear (Date.ofDayNumber number).year)).getD
          ((Date.ofDayNumber number).month - 1) 0 ∧
      (Date.ofDayNumber number).dayNumber = number := by
  have year := daysBeforeYear_yearOfDay (number + 719528)
  have next := daysBeforeYear_succ (yearOfDay (number + 719528))
  have inYear : (number + 719528 - daysBeforeYear (yearOfDay (number + 719528))).toNat
      < daysIn (monthLengths (isLeapYear (yearOfDay (number + 719528)))) := by
    rw [daysIn_monthLengths]
    split at next <;> simp_all <;> omega
  obtain ⟨month, day, total⟩ := splitMonths_spec _ _ inYear
  rw [length_monthLengths] at month
  simp only [Date.ofDayNumber, Date.dayNumber, Date.dayOfYear, Nat.add_sub_cancel]
  exact ⟨by omega, by omega, by omega, day, by omega⟩

theorem daysBeforeYear_add (year : Int) (years : Nat) :
    daysBeforeYear year + 365 * years ≤ daysBeforeYear (year + years) := by
  induction years with
  | zero => simp
  | succ years ih =>
    have next := daysBeforeYear_succ (year + years)
    rw [Int.natCast_succ, ← Int.add_assoc, next]
    split <;> omega

theorem daysBeforeYear_mono {earlier later : Int} (ordered : earlier ≤ later) :
    daysBeforeYear earlier ≤ daysBeforeYear later := by
  have grows := daysBeforeYear_add earlier (later - earlier).toNat
  rw [show earlier + ((later - earlier).toNat : Int) = later by omega] at grows
  omega

theorem isValid_ofDayNumber (number : Int) : (Date.ofDayNumber number).isValid = true := by
  obtain ⟨month, _, first, last, _⟩ := ofDayNumber_spec number
  simp only [Date.isValid, Bool.and_eq_true, decide_eq_true_eq]
  exact ⟨⟨month, first⟩, last⟩

theorem dayNumber_ofDayNumber (number : Int) : (Date.ofDayNumber number).dayNumber = number :=
  (ofDayNumber_spec number).2.2.2.2

theorem day_ofDayNumber_le (number : Int) : (Date.ofDayNumber number).day ≤ 31 :=
  Nat.le_trans (ofDayNumber_spec number).2.2.2.1 (monthLengths_le _ _)

/-- The days between the first and the last year of the calendar lie in one of its years. -/
theorem year_ofDayNumber (number : Int) (first : -96465292 ≤ number) (last : number ≤ 95026236) :
    -262143 ≤ (Date.ofDayNumber number).year ∧ (Date.ofDayNumber number).year ≤ 262142 := by
  have bounds := daysBeforeYear_yearOfDay (number + 719528)
  change -262143 ≤ yearOfDay (number + 719528) ∧ yearOfDay (number + 719528) ≤ 262142
  have low : daysBeforeYear (-262143) = -95745764 := by decide
  have high : daysBeforeYear 262143 = 95745765 := by decide
  constructor
  · by_cases early : yearOfDay (number + 719528) + 1 ≤ -262143
    · have before := daysBeforeYear_mono early
      omega
    · omega
  · by_cases late : 262143 ≤ yearOfDay (number + 719528)
    · have after := daysBeforeYear_mono late
      omega
    · omega

end JobDispatch.Time
