import JobDispatch.Proofs.Text.Numeral
import JobDispatch.Proofs.Time.Calendar
import JobDispatch.Time.Timestamp
set_option autoImplicit false

namespace JobDispatch.Time

open Text

theorem isBlank_digit (digit : Digit) : isBlank digit.char = false := by
  revert digit
  decide

theorem skipBlank_cons {c : Char} (rest : List Char) (solid : isBlank c = false) :
    skipBlank (c :: rest) = c :: rest := by
  simp [skipBlank, solid]

theorem skipBlank_digits {digits : List Digit} (rest : List Char) (nonempty : digits ≠ []) :
    skipBlank (digits.map Digit.char ++ rest) = digits.map Digit.char ++ rest := by
  cases digits with
  | nil => exact absurd rfl nonempty
  | cons digit digits => exact skipBlank_cons _ (isBlank_digit digit)

/-- A padded number of full width is read whatever follows it. -/
theorem readNumber_padded (width n : Nat) (rest : List Char) (positive : 0 < width)
    (small : n < 10 ^ width) :
    readNumber width (paddedNumeral width n ++ rest) = some (n, rest) := by
  have nonempty := paddedDigits_ne_nil width n
  have taken := takeDigits_map_append (paddedDigits width n) rest
  rw [length_paddedDigits width n positive small] at taken
  rw [readNumber, paddedNumeral_eq, skipBlank_digits rest nonempty, taken]
  cases equal : paddedDigits width n with
  | nil => exact absurd equal nonempty
  | cons digit digits =>
    have value := ofDigits_paddedDigits width n
    rw [equal] at value
    simp only [value]

theorem readLongNumber_padded (width n : Nat) (rest : List Char)
    (stops : Stops Digit.ofChar? rest) :
    readLongNumber (paddedNumeral width n ++ rest) = some (n, rest) := by
  have run := spanMap_map_append Digit.ofChar? Digit.char Digit.ofChar?_char
    (paddedDigits width n) rest stops
  rw [readLongNumber, paddedNumeral_eq, spanDigits, run]
  cases equal : paddedDigits width n with
  | nil => exact absurd equal (paddedDigits_ne_nil width n)
  | cons digit digits =>
    have value := ofDigits_paddedDigits width n
    rw [equal] at value
    simp only [value]

theorem readMark_cons (mark : Char) (rest : List Char) (solid : isBlank mark = false) :
    readMark mark (mark :: rest) = some rest := by
  simp [readMark, skipBlank_cons rest solid]

theorem readYear_digit (digit : Digit) (rest : List Char) :
    readYear (digit.char :: rest) =
      (readNumber 4 (digit.char :: rest)).map fun (year, rest) => ((year : Int), rest) := by
  have minus : digit.char ≠ '-' := by
    revert digit
    decide
  have plus : digit.char ≠ '+' := by
    revert digit
    decide
  rw [readYear, skipBlank_cons rest (isBlank_digit digit)]
  split
  · simp_all
  · simp_all
  · rfl

/-- Years of up to four digits are read by their width, all others by their sign. -/
theorem readYear_yearText (year : Int) (rest : List Char) :
    readYear (yearText year ++ '-' :: rest) = some (year, '-' :: rest) := by
  have stops : Stops Digit.ofChar? ('-' :: rest) := stops_cons (by decide)
  by_cases plain : 0 ≤ year ∧ year ≤ 9999
  · have read := readNumber_padded 4 year.toNat ('-' :: rest) (by decide) (by omega)
    rw [yearText, if_pos plain]
    cases equal : paddedDigits 4 year.toNat with
    | nil => exact absurd equal (paddedDigits_ne_nil 4 year.toNat)
    | cons digit digits =>
      rw [paddedNumeral_eq, equal] at read ⊢
      simp only [List.map_cons, List.cons_append] at read ⊢
      rw [readYear_digit, read]
      simp only [Option.map_some, Int.toNat_of_nonneg plain.1]
  · have read := readLongNumber_padded 4 year.natAbs ('-' :: rest) stops
    rw [yearText, if_neg plain]
    by_cases negative : year < 0
    · simp only [negative, if_true, List.cons_append, readYear, skipBlank_cons _ (show
        isBlank '-' = false by decide), read, Option.map_some]
      rw [show -(year.natAbs : Int) = year by omega]
    · simp only [negative, if_false, List.cons_append, readYear, skipBlank_cons _ (show
        isBlank '+' = false by decide), read, Option.map_some]
      rw [show (year.natAbs : Int) = year by omega]

/-- A fraction of as many digits as its width is read as if zeros followed. -/
theorem readFraction_digits (width n : Nat) (rest : List Char) (positive : 0 < width)
    (short : width ≤ 9) (small : n < 10 ^ width) (stops : Stops Digit.ofChar? rest) :
    readFraction ('.' :: paddedNumeral width n ++ rest) = some (n * 10 ^ (9 - width), rest) := by
  have run := spanMap_map_append Digit.ofChar? Digit.char Digit.ofChar?_char
    (paddedDigits width n) rest stops
  have length := length_paddedDigits width n positive small
  have filled : (paddedDigits width n ++ List.replicate 9 Digit.zero).take 9 =
      paddedDigits width n ++ List.replicate (9 - width) Digit.zero := by
    rw [List.take_append, List.take_of_length_le (by omega), List.take_replicate, length]
    simp only [Nat.sub_le, Nat.min_eq_left]
  have value : ofDigits ((paddedDigits width n ++ List.replicate 9 Digit.zero).take 9) =
      n * 10 ^ (9 - width) := by
    rw [filled, ofDigits_append_eq]
    simp
  rw [paddedNumeral_eq]
  simp only [List.cons_append, readFraction, spanDigits, run]
  cases equal : paddedDigits width n with
  | nil => exact absurd equal (paddedDigits_ne_nil width n)
  | cons digit digits =>
    rw [equal] at value
    simp only [value]

theorem readFraction_fractionText (nanos : Nat) (rest : List Char) (small : nanos < 1000000000)
    (stops : Stops Digit.ofChar? ('Z' :: rest)) :
    readFraction (fractionText nanos ++ 'Z' :: rest) = some (nanos, 'Z' :: rest) := by
  by_cases none : nanos = 0
  · simp [fractionText, none, readFraction]
  · by_cases millis : nanos % 1000000 = 0
    · simp only [fractionText, none, millis, if_false, if_true]
      rw [readFraction_digits 3 _ _ (by decide) (by decide) (by omega) stops]
      congr 2
      omega
    · by_cases micros : nanos % 1000 = 0
      · simp only [fractionText, none, millis, micros, if_false, if_true]
        rw [readFraction_digits 6 _ _ (by decide) (by decide) (by omega) stops]
        congr 2
        omega
      · simp only [fractionText, none, millis, micros, if_false]
        rw [readFraction_digits 9 _ _ (by decide) (by decide) (by omega) stops, Nat.sub_self,
          Nat.pow_zero, Nat.mul_one]

/-- A local time in universal time is the instant that its parts were taken from. -/
theorem Instant.ofLocal?_parts (t : Instant) :
    Instant.ofLocal? (Date.ofDayNumber (t.seconds / 86400)) (t.secondOfDay.toNat / 3600)
      (t.secondOfDay.toNat / 60 % 60)
      (t.secondOfDay.toNat % 60 + if t.isLeap then 1 else 0) (t.nanos % 1000000000) 0 =
      some t := by
  have calendar := t.inCalendar
  have second := t.inSecond
  have clock : t.secondOfDay.toNat < 86400 ∧ (t.secondOfDay.toNat : Int) = t.seconds % 86400 := by
    unfold Instant.secondOfDay
    omega
  simp only [firstSecond, lastSecond] at calendar
  have years := year_ofDayNumber (t.seconds / 86400) (by omega) (by omega)
  have number := dayNumber_ofDayNumber (t.seconds / 86400)
  have valid := isValid_ofDayNumber (t.seconds / 86400)
  have parts := Instant.ofParts?_parts t
  by_cases leap : 1000000000 ≤ t.nanos
  · have last : t.secondOfDay.toNat % 60 = 59 := by omega
    have whole : (t.secondOfDay.toNat / 3600 * 3600 + t.secondOfDay.toNat / 60 % 60 * 60 + 59 : Nat)
        = t.secondOfDay.toNat := by omega
    have excess : t.nanos % 1000000000 + 1000000000 = t.nanos := by omega
    rw [Instant.ofLocal?, if_pos ⟨valid, years.1, years.2, by omega, by omega, by
      simp only [last]
      split <;> omega⟩]
    simp only [Instant.isLeap, leap, decide_true, if_true, last, number, excess,
      show min (59 + 1) 59 = 59 from rfl, whole, Int.sub_zero]
    rw [show t.seconds / 86400 * 86400 + (t.secondOfDay.toNat : Int) = t.seconds by omega]
    exact parts
  · have whole : (t.secondOfDay.toNat / 3600 * 3600 + t.secondOfDay.toNat / 60 % 60 * 60
        + min (t.secondOfDay.toNat % 60) 59 : Nat) = t.secondOfDay.toNat := by omega
    have plain : t.nanos % 1000000000 = t.nanos := by omega
    rw [Instant.ofLocal?, if_pos ⟨valid, years.1, years.2, by omega, by omega, by
      simp only [Instant.isLeap, leap, decide_false]
      simp
      omega⟩]
    simp only [Instant.isLeap, leap, decide_false, Bool.false_eq_true, if_false, Nat.add_zero,
      number, whole, plain, show t.secondOfDay.toNat % 60 ≠ 60 by omega, Int.sub_zero]
    rw [show t.seconds / 86400 * 86400 + (t.secondOfDay.toNat : Int) = t.seconds by omega]
    exact parts

/-- Reading the text of an instant gives the instant. -/
theorem Instant.ofText?_text (t : Instant) : Instant.ofText? t.text = some t := by
  have month := ofDayNumber_spec (t.seconds / 86400)
  have day := day_ofDayNumber_le (t.seconds / 86400)
  have clock : t.secondOfDay.toNat < 86400 := by
    unfold Instant.secondOfDay
    omega
  have stops : Stops Digit.ofChar? ['Z'] := stops_cons (by decide)
  have dash : isBlank '-' = false := by decide
  have colon : isBlank ':' = false := by decide
  have fraction := readFraction_fractionText (t.nanos % 1000000000) [] (by omega) stops
  have second : t.secondOfDay.toNat % 60 + (if t.isLeap then 1 else 0) < 10 ^ 2 := by
    split <;> omega
  simp only [Instant.ofText?, Instant.text, timestamp, String.toList_ofList, List.append_assoc,
    List.cons_append, String.reduceToList, bind, Option.bind]
  simp only [readYear_yearText, readMark_cons _ _ dash, readMark_cons _ _ colon,
    readNumber_padded 2 _ _ (by decide) (show (Date.ofDayNumber (t.seconds / 86400)).month < 10 ^ 2
      by omega),
    readNumber_padded 2 _ _ (by decide) (show (Date.ofDayNumber (t.seconds / 86400)).day < 10 ^ 2
      by omega),
    readNumber_padded 2 _ _ (by decide) (show t.secondOfDay.toNat / 3600 < 10 ^ 2 by omega),
    readNumber_padded 2 _ _ (by decide) (show t.secondOfDay.toNat / 60 % 60 < 10 ^ 2 by omega),
    readNumber_padded 2 _ _ (by decide) second, fraction,
    skipBlank_cons [] (show isBlank 'Z' = false by decide), readOffset,
    show (skipBlank []).isEmpty = true from rfl, if_true]
  exact Instant.ofLocal?_parts t

end JobDispatch.Time
