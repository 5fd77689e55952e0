import JobDispatch.Time.Instant
set_option autoImplicit false

namespace JobDispatch.Time.Instant

/-- One time is no later than another one. -/
instance : LE Instant where
  le earlier later := later.before earlier = false

instance (earlier later : Instant) : Decidable (earlier ≤ later) :=
  inferInstanceAs (Decidable (later.before earlier = false))

theorem le_iff {earlier later : Instant} : earlier ≤ later ↔ earlier.seconds < later.seconds
    ∨ earlier.seconds = later.seconds ∧ earlier.nanos ≤ later.nanos := by
  show later.before earlier = false ↔ _
  simp only [before, Bool.or_eq_false_iff, Bool.and_eq_false_iff, decide_eq_false_iff_not]
  omega

theorem le_refl (time : Instant) : time ≤ time := le_iff.2 (.inr ⟨rfl, Nat.le_refl _⟩)

theorem le_trans {first second third : Instant} (left : first ≤ second) (right : second ≤ third) :
    first ≤ third := by
  rw [le_iff] at left right ⊢
  omega

variable {earlier later : Instant}

/-- Outside of leap seconds the span between two times is the difference of their nanoseconds. -/
theorem since_of_isLeap_eq_false (late : later.isLeap = false) (early : earlier.isLeap = false) :
    later.since earlier = later.totalNanos - earlier.totalNanos := by
  simp only [since, late, early, totalNanos, and_false, Bool.false_eq_true, if_false]
  omega

theorem totalNanos_le_of_before_eq_false (early : earlier.isLeap = false)
    (order : later.before earlier = false) : earlier.totalNanos ≤ later.totalNanos := by
  simp only [isLeap, decide_eq_false_iff_not] at early
  simp only [before, Bool.or_eq_false_iff, Bool.and_eq_false_iff, decide_eq_false_iff_not] at order
  simp only [totalNanos]
  omega

theorem ofParts?_eq_some {seconds : Int} {nanos : Nat} {time : Instant} :
    ofParts? seconds nanos = some time ↔ time.seconds = seconds ∧ time.nanos = nanos := by
  constructor
  · intro parts
    simp only [ofParts?] at parts
    split at parts
    · cases parts
      exact ⟨rfl, rfl⟩
    · cases parts
  · rintro ⟨same, equal⟩
    rw [← same, ← equal, ofParts?_parts]

theorem ofNanos?_eq_some {total : Int} {time : Instant} :
    ofNanos? total = some time ↔ time.isLeap = false ∧ time.totalNanos = total := by
  rw [ofNanos?, ofParts?_eq_some, isLeap, totalNanos, decide_eq_false_iff_not]
  omega

/-- The calendar holds what lies between its ends. -/
theorem isSome_ofNanos? {total : Int} : (ofNanos? total).isSome = true ↔
    firstSecond * 1000000000 ≤ total ∧ total < (lastSecond + 1) * 1000000000 := by
  have small : (total % 1000000000).toNat < 1000000000 := by omega
  rw [ofNanos?, ofParts?]
  split
  · simp only [Option.isSome_some, true_iff]
    omega
  · simp only [Option.isSome_none, Bool.false_eq_true, false_iff]
    omega

theorem plus?_eq_some {span : Nat} : earlier.plus? span = some later ↔
    later.isLeap = false ∧ later.totalNanos = earlier.totalNanos + span := ofNanos?_eq_some

/-- Outside of leap seconds counting back is counting nanoseconds. -/
theorem minus?_eq_ofNanos? {time : Instant} (common : time.isLeap = false) (span : Nat) :
    time.minus? span = ofNanos? (time.totalNanos - span) := by
  rw [isLeap, decide_eq_false_iff_not] at common
  rw [minus?]
  split
  · rw [ofNanos?, totalNanos]
    congr 1 <;> omega
  · rfl

/-- Counting back fails exactly where it leaves the calendar at its beginning, from a leap second
too. -/
theorem minus?_eq_none_iff {time : Instant} {span : Nat} :
    time.minus? span = none ↔ time.totalNanos - span < firstSecond * 1000000000 := by
  obtain ⟨first, last⟩ := time.inCalendar
  have within := time.inSecond
  unfold minus? totalNanos
  split
  · have parts : (firstSecond ≤ time.seconds ∧ time.seconds ≤ lastSecond)
        ∧ (time.nanos - span < 1000000000
          ∨ time.nanos - span < 2000000000 ∧ time.seconds % 60 = 59) := by
      omega
    rw [ofParts?, dif_pos parts]
    simp only [reduceCtorEq, false_iff]
    omega
  · rw [← Option.not_isSome_iff_eq_none, isSome_ofNanos?]
    omega

/-- A span that reaches back into the calendar from one time does so from any later one. -/
theorem isSome_minus?_of_le {span : Nat} (common : earlier.isLeap = false)
    (commonLater : later.isLeap = false) (order : earlier.totalNanos ≤ later.totalNanos)
    (early : (earlier.minus? span).isSome = true) : (later.minus? span).isSome = true := by
  obtain ⟨first, last⟩ := later.inCalendar
  rw [minus?_eq_ofNanos? common, isSome_ofNanos?] at early
  rw [isLeap, decide_eq_false_iff_not] at commonLater
  rw [minus?_eq_ofNanos? (by simpa [isLeap] using commonLater), isSome_ofNanos?]
  refine ⟨by omega, ?_⟩
  simp only [totalNanos]
  omega

/-- What does not lie before the point so long ago is no older than that. -/
theorem le_of_before_minus?_eq_false {time cutoff now : Instant} {span : Nat}
    (common : now.isLeap = false)
    (back : now.minus? span = some cutoff) (order : time.before cutoff = false) :
    now.totalNanos ≤ time.totalNanos + span := by
  rw [minus?_eq_ofNanos? common, ofNanos?_eq_some] at back
  have bound := totalNanos_le_of_before_eq_false back.1 order
  omega

end JobDispatch.Time.Instant
