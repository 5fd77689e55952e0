import JobDispatch.Proofs.Binary64.Nearest
import JobDispatch.Binary64.Shortest
set_option autoImplicit false

/- What is written for a finite number reads back to it, bit for bit. A candidate is accepted only
if it reads back; the exact value, which stands in when there is no candidate, reads back because
it is a number of the format. -/
namespace JobDispatch.Binary64

theorem ofMagnitude_magnitude (x : Binary64) : ofMagnitude x.isNegative x.magnitude = x := by
  obtain ⟨bits⟩ := x
  have bound := bits.isLt
  have sign : bits.msb = decide (2 ^ (64 - 1) ≤ bits.toNat) := BitVec.msb_eq_decide bits
  have same : (ofMagnitude bits.msb (bits.toNat % 2 ^ 63)).bits.toNat = bits.toNat := by
    simp only [ofMagnitude, BitVec.toNat_ofNat, sign, decide_eq_true_eq, Nat.shiftLeft_eq,
      Nat.one_mul]
    split <;> omega
  exact congrArg mk (BitVec.eq_of_toNat_eq same)

theorem eq_zero_of_magnitude (x : Binary64) (none : x.magnitude = 0) : zero x.isNegative = x := by
  rw [zero, ← none, ofMagnitude_magnitude]

/-- Mantissa and scale of a finite number other than zero, in the two forms that it may have. -/
theorem mantissa_bounds (x : Binary64) (finite : x.isFinite = true) (nonzero : x.magnitude ≠ 0) :
    0 < x.mantissa ∧ x.mantissa < 2 ^ 53 ∧ -1074 ≤ x.scale ∧ x.scale ≤ 971 ∧
      (x.scale = -1074 ∨ 2 ^ 52 ≤ x.mantissa) ∧
      x.magnitude = (x.scale + 1074).toNat * 2 ^ 52 + x.mantissa := by
  have bound : x.magnitude < 2047 * 2 ^ 52 := of_decide_eq_true finite
  have exponent : x.exponentField = x.magnitude / 2 ^ 52 :=
    Nat.shiftRight_eq_div_pow x.magnitude 52
  have fraction : x.fractionField = x.magnitude % 2 ^ 52 := rfl
  by_cases small : x.exponentField = 0
  · have mantissa : x.mantissa = x.fractionField := if_pos small
    have scale : x.scale = -1074 := if_pos small
    omega
  · have mantissa : x.mantissa = 2 ^ 52 + x.fractionField := if_neg small
    have scale : x.scale = (x.exponentField : Int) - 1075 := if_neg small
    omega

/-- The power of two that lies next below a finite number. -/
theorem log_ratio (x : Binary64) (finite : x.isFinite = true) (nonzero : x.magnitude ≠ 0) :
    Int.log 2 ((x.mantissa : ℚ) * 2 ^ x.scale) ≤ 52 + x.scale ∧
      (2 ^ 52 ≤ x.mantissa → Int.log 2 ((x.mantissa : ℚ) * 2 ^ x.scale) = 52 + x.scale) := by
  obtain ⟨positive, bound, _⟩ := mantissa_bounds x finite nonzero
  have mantissa_pos : (0 : ℚ) < x.mantissa := by exact_mod_cast positive
  have power_pos : (0 : ℚ) < 2 ^ x.scale := zpow_pos (by decide) _
  have value_pos : (0 : ℚ) < (x.mantissa : ℚ) * 2 ^ x.scale := mul_pos mantissa_pos power_pos
  have below : Int.log 2 ((x.mantissa : ℚ) * 2 ^ x.scale) < 53 + x.scale := by
    rw [← Int.lt_zpow_iff_log_lt (by decide) value_pos]
    have power : ((2 : Nat) : ℚ) ^ (53 + x.scale) = (2 ^ 53 : Nat) * 2 ^ x.scale := by
      push_cast
      rw [zpow_add₀ (by norm_num)]
      norm_cast
    rw [power]
    exact mul_lt_mul_of_pos_right (by exact_mod_cast bound) power_pos
  refine ⟨by omega, fun normal => ?_⟩
  have above : 52 + x.scale ≤ Int.log 2 ((x.mantissa : ℚ) * 2 ^ x.scale) := by
    rw [← Int.zpow_le_iff_le_log (by decide) value_pos]
    have power : ((2 : Nat) : ℚ) ^ (52 + x.scale) = (2 ^ 52 : Nat) * 2 ^ x.scale := by
      push_cast
      rw [zpow_add₀ (by norm_num)]
      norm_cast
    rw [power]
    exact mul_le_mul_of_nonneg_right (by exact_mod_cast normal) (le_of_lt power_pos)
  omega

theorem ratio_eq (x : Binary64) : (x.ratio.1 : ℚ) / x.ratio.2 = (x.mantissa : ℚ) * 2 ^ x.scale := by
  have power := zpow_eq_div 2 (by decide) x.scale
  push_cast at power
  simp only [ratio, Nat.shiftLeft_eq, Nat.one_mul]
  push_cast
  rw [power]
  ring

theorem ratio_pos (x : Binary64) (finite : x.isFinite = true) (nonzero : x.magnitude ≠ 0) :
    0 < x.ratio.1 ∧ 0 < x.ratio.2 := by
  simp only [ratio, Nat.shiftLeft_eq, Nat.one_mul]
  exact ⟨Nat.mul_pos (mantissa_bounds x finite nonzero).1 (Nat.pow_pos (by decide)),
    Nat.pow_pos (by decide)⟩

/-- A finite number is the nearest one to itself. -/
theorem nearestMagnitude_ratio (x : Binary64) (finite : x.isFinite = true)
    (nonzero : x.magnitude ≠ 0) : nearestMagnitude x.ratio.1 x.ratio.2 = x.magnitude := by
  obtain ⟨positive, _, least, _, form, magnitude⟩ := mantissa_bounds x finite nonzero
  obtain ⟨upper, exact_log⟩ := log_ratio x finite nonzero
  have ratio_pos := ratio_pos x finite nonzero
  have log : floorLog2 x.ratio.1 x.ratio.2 = Int.log 2 ((x.mantissa : ℚ) * 2 ^ x.scale) := by
    rw [floorLog2_eq_log _ _ ratio_pos.1 ratio_pos.2, ratio_eq]
  have scale : max (floorLog2 x.ratio.1 x.ratio.2 - 52) (-1074) = x.scale := by
    rw [log]
    rcases form with subnormal | normal
    · omega
    · rw [exact_log normal]
      omega
  have mantissa : roundQuotient .toEven (x.ratio.1 * 2 ^ (-x.scale).toNat)
      (x.ratio.2 * 2 ^ x.scale.toNat) = x.mantissa := by
    have product : x.ratio.1 * 2 ^ (-x.scale).toNat =
        x.mantissa * (x.ratio.2 * 2 ^ x.scale.toNat) := by
      simp only [ratio, Nat.shiftLeft_eq]
      ring
    rw [product]
    exact roundQuotient_of_dvd _ _ _ (Nat.mul_pos ratio_pos.2 (Nat.pow_pos (by decide)))
  simp only [isFinite, decide_eq_true_eq] at finite
  simp only [nearestMagnitude, scale, mantissa, Nat.shiftLeft_eq]
  rw [← magnitude]
  exact Nat.min_eq_left (Nat.le_of_lt finite)

def exactDecimal (x : Binary64) : Decimal :=
  ⟨x.isNegative, x.ratio.1 * 5 ^ (-x.scale).toNat, -((-x.scale).toNat : Int)⟩

theorem ten_pow_eq (exponent : Nat) : 10 ^ exponent = 5 ^ exponent * 2 ^ exponent := by
  rw [← Nat.mul_pow]

theorem two_pow_lt_of_le_971 {exponent : Nat} (bound : exponent ≤ 971) :
    2 ^ 53 * 2 ^ exponent < 10 ^ 310 := by
  have grows := Nat.pow_le_pow_right (show 0 < 2 by decide) bound
  exact Nat.lt_of_le_of_lt (Nat.mul_le_mul_left (2 ^ 53) grows) (by decide +kernel)

theorem two_pow_lt_of_le_1074 {exponent : Nat} (bound : exponent ≤ 1074) :
    2 ^ exponent < 10 ^ 330 := by
  have grows := Nat.pow_le_pow_right (show 0 < 2 by decide) bound
  exact Nat.lt_of_le_of_lt grows (by decide +kernel)

/-- The exact value lies well inside the range in which decimals are rounded at all. -/
theorem exactDecimal_inRange (x : Binary64) (finite : x.isFinite = true)
    (nonzero : x.magnitude ≠ 0) :
    -330 ≤ x.exactDecimal.exponent + ((Text.digitsOf x.exactDecimal.significand).length : Int) ∧
      x.exactDecimal.exponent + ((Text.digitsOf x.exactDecimal.significand).length : Int)
        ≤ 310 := by
  obtain ⟨positive, bound, least, most, _⟩ := mantissa_bounds x finite nonzero
  by_cases whole : 0 ≤ x.scale
  · have places : (-x.scale).toNat = 0 := by omega
    have exponent_le : x.scale.toNat ≤ 971 := Int.toNat_le.2 most
    have value : x.exactDecimal.significand < 10 ^ 310 := by
      have product := Nat.mul_le_mul_right (2 ^ x.scale.toNat) (Nat.le_of_lt bound)
      simp only [exactDecimal, ratio, places, Nat.shiftLeft_eq, Nat.pow_zero, Nat.mul_one]
      exact Nat.lt_of_le_of_lt product (two_pow_lt_of_le_971 exponent_le)
    have length := Text.length_digitsOf_le _ 310 (by decide) value
    simp only [exactDecimal, places] at *
    omega
  · have none : x.scale.toNat = 0 := by omega
    have some_places : (-x.scale).toNat ≤ 1074 := by omega
    have significand : x.exactDecimal.significand = x.mantissa * 5 ^ (-x.scale).toNat := by
      simp [exactDecimal, ratio, none]
    have powers := ten_pow_eq (-x.scale).toNat
    have upper : x.exactDecimal.significand < 10 ^ (16 + (-x.scale).toNat) := by
      have fives : 5 ^ (-x.scale).toNat ≤ 10 ^ (-x.scale).toNat :=
        Nat.pow_le_pow_left (by decide) _
      rw [significand, Nat.pow_add]
      exact Nat.mul_lt_mul_of_lt_of_le (Nat.lt_trans bound (by decide)) fives
        (Nat.pow_pos (by decide))
    have length := Text.length_digitsOf_le _ (16 + (-x.scale).toNat) (by omega) upper
    have lower : (-x.scale).toNat ≤ (Text.digitsOf x.exactDecimal.significand).length + 330 := by
      by_contra short
      have few := Text.lt_pow_length_digitsOf x.exactDecimal.significand
      have grows : 10 ^ ((Text.digitsOf x.exactDecimal.significand).length + 330) ≤
          10 ^ (-x.scale).toNat := Nat.pow_le_pow_right (by decide) (by omega)
      have fives : 5 ^ (-x.scale).toNat ≤ x.exactDecimal.significand := by
        rw [significand]
        exact Nat.le_mul_of_pos_left _ positive
      have product : 10 ^ (-x.scale).toNat ≤ x.exactDecimal.significand * 2 ^ (-x.scale).toNat := by
        rw [powers]
        exact Nat.mul_le_mul_right _ fives
      have far : x.exactDecimal.significand * 2 ^ (-x.scale).toNat <
          10 ^ ((Text.digitsOf x.exactDecimal.significand).length + 330) := by
        rw [Nat.pow_add 10 _ 330]
        exact Nat.mul_lt_mul_of_lt_of_le few (Nat.le_of_lt (two_pow_lt_of_le_1074 some_places))
          (Nat.pow_pos (by decide))
      exact Nat.lt_irrefl _ (Nat.lt_of_lt_of_le (Nat.lt_of_le_of_lt product far) grows)
    have exponent : x.exactDecimal.exponent = -((-x.scale).toNat : Int) := rfl
    rw [exponent]
    omega

theorem ofDecimal_exactDecimal (x : Binary64) (finite : x.isFinite = true)
    (nonzero : x.magnitude ≠ 0) : ofDecimal x.exactDecimal = x := by
  have ratio_pos := ratio_pos x finite nonzero
  have range := exactDecimal_inRange x finite nonzero
  have significand : x.exactDecimal.significand ≠ 0 :=
    Nat.pos_iff_ne_zero.1 (Nat.mul_pos ratio_pos.1 (Nat.pow_pos (by decide)))
  have whole : x.exactDecimal.exponent.toNat = 0 := by
    simp only [exactDecimal]
    omega
  have places : (-x.exactDecimal.exponent).toNat = (-x.scale).toNat := by
    simp only [exactDecimal]
    omega
  have same : x.exactDecimal.significand * 10 ^ x.exactDecimal.exponent.toNat * x.ratio.2 =
      x.ratio.1 * 10 ^ (-x.exactDecimal.exponent).toNat := by
    rw [whole, places, ten_pow_eq (-x.scale).toNat]
    simp only [exactDecimal, ratio, Nat.shiftLeft_eq, Nat.pow_zero, Nat.mul_one]
    ring
  have small : ¬ (x.exactDecimal.significand = 0 ∨ x.exactDecimal.exponent
      + ((Text.digitsOf x.exactDecimal.significand).length : Int) < -330) := by omega
  have great : ¬ 310 < x.exactDecimal.exponent
      + ((Text.digitsOf x.exactDecimal.significand).length : Int) := by omega
  simp only [ofDecimal, small, great, if_false, Nat.pow_eq]
  have magnitude := nearestMagnitude_congr
    (Nat.mul_pos (Nat.pos_of_ne_zero significand) (Nat.pow_pos (by decide)))
    (Nat.pow_pos (by decide)) ratio_pos.2 same
  rw [magnitude, nearestMagnitude_ratio x finite nonzero]
  exact ofMagnitude_magnitude x

theorem ofDecimal_trimmed (negative : Bool) (significand : Nat) (exponent : Int) :
    ofDecimal (Decimal.trimmed negative significand exponent) =
      ofDecimal ⟨negative, significand, exponent⟩ := by
  fun_induction Decimal.trimmed negative significand exponent with
  | case1 significand exponent zeros ih =>
    have shift := ofDecimal_shift negative (significand / 10) (exponent + 1) 1
    rw [ih, ← shift]
    congr 2
    · omega
    · omega
  | case2 significand exponent _ => rfl

/-- A candidate reads back, since it is tested by reading it. -/
theorem ofDecimal_candidate? (tie : Tie) (x : Binary64) (count : Nat) (decimal : Decimal)
    (found : x.candidate? tie count = some decimal) : ofDecimal decimal = x := by
  have tested : ∀ first second : Decimal,
      (if x.isReadFrom first then some first
        else if x.isReadFrom second then some second else none) = some decimal →
      ofDecimal decimal = x := by
    intro first second chosen
    by_cases reads : x.isReadFrom first = true
    · rw [if_pos reads] at chosen
      rw [← Option.some.inj chosen]
      exact of_decide_eq_true reads
    · rw [if_neg reads] at chosen
      by_cases reads' : x.isReadFrom second = true
      · rw [if_pos reads'] at chosen
        rw [← Option.some.inj chosen]
        exact of_decide_eq_true reads'
      · rw [if_neg reads'] at chosen
        cases chosen
  exact tested _ _ found

/-- The shortest decimal of a finite number reads back to it. -/
theorem ofDecimal_shortest (tie : Tie) (x : Binary64) (finite : x.isFinite = true) :
    ofDecimal (x.shortest tie) = x := by
  by_cases none : x.magnitude = 0
  · simp only [shortest, none, if_true]
    simpa [ofDecimal] using eq_zero_of_magnitude x none
  · simp only [shortest, none, if_false]
    split
    · rename_i decimal found
      obtain ⟨count, _, candidate⟩ := List.exists_of_findSome?_eq_some found
      rw [ofDecimal_trimmed]
      exact ofDecimal_candidate? tie x count decimal candidate
    · exact ofDecimal_exactDecimal x finite none

end JobDispatch.Binary64
