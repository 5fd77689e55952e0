import JobDispatch.Proofs.Binary64.Shortest
import JobDispatch.Json.Number
set_option autoImplicit false

namespace JobDispatch.Json.Number

open Text

/-- The form that the grammar asks for: digits before the point, zero first only if it stands alone,
and digits after an exponent's sign. -/
structure WellFormed (number : Number) : Prop where
  whole : number.whole ≠ []
  leading : ∀ digit digits, number.whole = digit :: digits → digits ≠ [] → digit ≠ Digit.zero
  exponent : ∀ negative digits, number.exponent = some (negative, digits) → digits ≠ []

theorem wellFormed_digits {digits : List Digit} (n : Nat) (equal : digits = digitsOf n)
    (digit : Digit) (rest : List Digit) (split : digits = digit :: rest) (long : rest ≠ []) :
    digit ≠ Digit.zero := by
  by_cases zero : n = 0
  · subst zero
    rw [split, digitsOf, if_pos (by decide)] at equal
    simp_all
  · exact head_digitsOf_ne_zero n (Nat.pos_of_ne_zero zero) digit rest (equal.symm.trans split)

theorem wellFormed_ofNat (n : Nat) : (ofNat n).WellFormed where
  whole := digitsOf_ne_nil n
  leading := wellFormed_digits n rfl
  exponent := by
    intro negative digits absent
    cases absent

/-- The digits of a decimal before its point and after it. -/
theorem positional_spec (decimal : Decimal) :
    ofDigits (decimal.positional.1 ++ decimal.positional.2) =
        decimal.significand * 10 ^ decimal.exponent.toNat ∧
      decimal.positional.2.length = (-decimal.exponent).toNat ∧
      decimal.positional.1 ≠ [] ∧
      ∀ digit digits, decimal.significand ≠ 0 → decimal.positional.1 = digit :: digits →
        digits ≠ [] → digit ≠ Digit.zero := by
  obtain ⟨negative, significand, exponent⟩ := decimal
  have nonempty := length_digitsOf_pos significand
  generalize wholeEq : digitsOf significand ++ List.replicate exponent.toNat Digit.zero = whole
  have wholePos : 0 < whole.length := by
    rw [← wholeEq, List.length_append]
    omega
  have value : ofDigits whole = significand * 10 ^ exponent.toNat := by
    rw [← wholeEq, ofDigits_append_eq]
    simp
  have padded : ∀ zeros, ofDigits (List.replicate zeros Digit.zero ++ whole) =
      significand * 10 ^ exponent.toNat := by
    intro zeros
    rw [ofDigits_append_eq, value]
    simp
  simp only [Decimal.positional, wholeEq, List.take_append_drop]
  refine ⟨padded _, ?_, ?_, ?_⟩
  · simp only [List.length_drop, List.length_append, List.length_replicate]
    omega
  · intro empty
    have length := congrArg List.length empty
    simp only [List.length_take, List.length_append, List.length_replicate, List.length_nil]
      at length
    omega
  · intro digit digits nonzero split long
    by_cases short : whole.length ≤ (-exponent).toNat
    · -- All of the value lies behind the point, so that a single zero stands before it.
      have length := congrArg List.length split
      have rest := List.length_pos_iff.2 long
      simp only [List.length_take, List.length_append, List.length_replicate, List.length_cons]
        at length
      omega
    · have unpadded : (-exponent).toNat + 1 - whole.length = 0 := by omega
      simp only [unpadded, List.replicate_zero, List.nil_append] at split
      cases equal : digitsOf significand with
      | nil => exact absurd equal (digitsOf_ne_nil significand)
      | cons first others =>
        have head := congrArg List.head? split
        rw [List.head?_take, ← wholeEq, equal] at head
        simp only [List.cons_append, List.head?_cons] at head
        split at head
        · cases head
        · rw [← Option.some.inj head]
          exact head_digitsOf_ne_zero significand (Nat.pos_of_ne_zero nonzero) first others equal

/-- The literal of a decimal in positional notation, with at least one place. -/
def ofPositional (decimal : Decimal) : Number :=
  ⟨decimal.negative, decimal.positional.1,
    if decimal.positional.2.isEmpty then [Digit.zero] else decimal.positional.2, none⟩

/-- The literal of a decimal with one digit before the point and a signed exponent. -/
def ofScientific (decimal : Decimal) : Number :=
  ⟨decimal.negative, (digitsOf decimal.significand).take 1,
    (digitsOf decimal.significand).drop 1,
    some (decide (decimal.leadingExponent < 0), digitsOf decimal.leadingExponent.natAbs)⟩

theorem toBinary64_ofPositional (decimal : Decimal) :
    (ofPositional decimal).toBinary64 = Binary64.ofDecimal decimal := by
  obtain ⟨value, places, _⟩ := positional_spec decimal
  have shift := Binary64.ofDecimal_shift decimal.negative decimal.significand decimal.exponent
  by_cases whole : 0 ≤ decimal.exponent
  · have empty : decimal.positional.2 = [] := List.eq_nil_of_length_eq_zero (by omega)
    rw [empty, List.append_nil] at value
    have digits : ofDigits (decimal.positional.1 ++ [Digit.zero]) =
        decimal.significand * 10 ^ (decimal.exponent.toNat + 1) := by
      rw [ofDigits_append_eq, value, Nat.pow_succ]
      simp [ofDigits]
      ring
    have literal : (ofPositional decimal).decimal = ⟨decimal.negative,
        decimal.significand * 10 ^ (decimal.exponent.toNat + 1),
        decimal.exponent - ((decimal.exponent.toNat + 1 : Nat) : Int)⟩ := by
      simp only [ofPositional, Number.decimal, exponentValue, empty, List.isEmpty_nil, if_true,
        digits, List.length_singleton, Decimal.mk.injEq, true_and]
      omega
    rw [toBinary64, literal, shift]
  · have filled : decimal.positional.2.isEmpty = false := by
      rw [List.isEmpty_eq_false_iff, ← List.length_pos_iff]
      omega
    have none : decimal.exponent.toNat = 0 := by omega
    rw [none, Nat.pow_zero, Nat.mul_one] at value
    have literal : (ofPositional decimal).decimal = decimal := by
      simp only [ofPositional, Number.decimal, exponentValue, filled, Bool.false_eq_true, if_false,
        value, places]
      rw [show (0 : Int) - ((-decimal.exponent).toNat : Int) = decimal.exponent by omega]
    rw [toBinary64, literal]

theorem toBinary64_ofScientific (decimal : Decimal) :
    (ofScientific decimal).toBinary64 = Binary64.ofDecimal decimal := by
  have nonempty := length_digitsOf_pos decimal.significand
  have leading : (ofScientific decimal).exponentValue = decimal.leadingExponent := by
    by_cases negative : decimal.leadingExponent < 0
    · simp only [ofScientific, exponentValue, negative, decide_true, ofDigits_digitsOf]
      omega
    · simp only [ofScientific, exponentValue, negative, decide_false, ofDigits_digitsOf]
      omega
  have literal : (ofScientific decimal).decimal = decimal := by
    simp only [Number.decimal, leading]
    simp only [ofScientific, List.take_append_drop, ofDigits_digitsOf, List.length_drop,
      Decimal.leadingExponent]
    rw [show decimal.exponent + ((digitsOf decimal.significand).length : Int) - 1
      - (((digitsOf decimal.significand).length - 1 : Nat) : Int) = decimal.exponent by omega]
  rw [toBinary64, literal]

theorem ofBinary64_eq (x : Binary64) :
    ofBinary64 x = ofPositional (x.shortest .toEven) ∨
      ofBinary64 x = ofScientific (x.shortest .toEven) := by
  simp only [ofBinary64]
  split
  · exact Or.inl rfl
  · exact Or.inr rfl

/-- The literal of a finite number reads back to the number, bit for bit. -/
theorem toBinary64_ofBinary64 (x : Binary64) (finite : x.isFinite = true) :
    (ofBinary64 x).toBinary64 = x := by
  rcases ofBinary64_eq x with positional | scientific
  · rw [positional, toBinary64_ofPositional, Binary64.ofDecimal_shortest _ x finite]
  · rw [scientific, toBinary64_ofScientific, Binary64.ofDecimal_shortest _ x finite]

theorem isReadable_ofBinary64 (x : Binary64) (finite : x.isFinite = true) :
    (ofBinary64 x).isReadable = true := by
  rw [isReadable, toBinary64_ofBinary64 x finite, finite]

theorem wellFormed_ofPositional (decimal : Decimal)
    (zero : decimal.significand = 0 → decimal.exponent = 0) :
    (ofPositional decimal).WellFormed where
  whole := (positional_spec decimal).2.2.1
  leading := by
    intro digit digits split long
    by_cases none : decimal.significand = 0
    · have whole : decimal.positional.1 = [Digit.zero] := by
        simp only [Decimal.positional, none, zero none]
        rw [digitsOf, if_pos (by decide)]
        rfl
      have single : [Digit.zero] = digit :: digits := whole.symm.trans split
      simp_all
    · exact (positional_spec decimal).2.2.2 digit digits none split long
  exponent := by
    intro negative digits absent
    cases absent

theorem wellFormed_ofScientific (decimal : Decimal) : (ofScientific decimal).WellFormed where
  whole := by
    have nonempty := length_digitsOf_pos decimal.significand
    intro empty
    have length := congrArg List.length empty
    simp only [ofScientific, List.length_take, List.length_nil] at length
    omega
  leading := by
    intro digit digits split long
    have length := congrArg List.length split
    have rest := List.length_pos_iff.2 long
    simp only [ofScientific, List.length_take, List.length_cons] at length
    omega
  exponent := by
    intro negative digits equal
    cases equal
    exact digitsOf_ne_nil _

theorem wellFormed_ofBinary64 (x : Binary64) (finite : x.isFinite = true) :
    (ofBinary64 x).WellFormed := by
  have reads := Binary64.ofDecimal_shortest .toEven x finite
  have zero : (x.shortest .toEven).significand = 0 → (x.shortest .toEven).exponent = 0 := by
    intro none
    have magnitude : x.magnitude = 0 := by
      rw [← reads]
      simp only [Binary64.ofDecimal, none, true_or, if_true]
      cases (x.shortest .toEven).negative <;> decide
    simp [Binary64.shortest, magnitude]
  rcases ofBinary64_eq x with positional | scientific
  · rw [positional]
    exact wellFormed_ofPositional _ zero
  · rw [scientific]
    exact wellFormed_ofScientific _

theorem isReadable_ofNat (n : Nat) (small : n < 2 ^ 64) : (ofNat n).isReadable = true := by
  have finite := Binary64.isFinite_ofDecimal_nat n small
  simpa [isReadable, toBinary64, decimal, ofNat, exponentValue] using finite

end JobDispatch.Json.Number
