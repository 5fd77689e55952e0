import Mathlib.Data.Int.Log
import Mathlib.Data.Rat.Floor
import Mathlib.Tactic.Ring
import Mathlib.Tactic.FieldSimp
import Mathlib.Tactic.Positivity
import JobDispatch.Proofs.Text.Numeral
import JobDispatch.Binary64.Nearest
set_option autoImplicit false

namespace JobDispatch

theorem roundQuotient_mul_left (tie : Tie) (factor numerator denominator : Nat)
    (positive : 0 < factor) :
    roundQuotient tie (factor * numerator) (factor * denominator) =
      roundQuotient tie numerator denominator := by
  have twice : 2 * (factor * numerator % (factor * denominator)) =
      factor * (2 * (numerator % denominator)) := by
    rw [Nat.mul_mod_mul_left]
    ac_rfl
  simp only [roundQuotient, twice, Nat.mul_div_mul_left _ _ positive,
    Nat.mul_lt_mul_left positive]

/-- Quotients of one value are rounded alike. -/
theorem roundQuotient_congr (tie : Tie) {numerator denominator numerator' denominator' : Nat}
    (positive : 0 < denominator) (positive' : 0 < denominator')
    (same : numerator * denominator' = numerator' * denominator) :
    roundQuotient tie numerator denominator = roundQuotient tie numerator' denominator' := by
  rw [← roundQuotient_mul_left tie denominator' numerator denominator positive',
    ← roundQuotient_mul_left tie denominator numerator' denominator' positive,
    Nat.mul_comm denominator' numerator, same, Nat.mul_comm denominator numerator',
    Nat.mul_comm denominator' denominator]

theorem roundQuotient_le (tie : Tie) (numerator denominator : Nat) :
    roundQuotient tie numerator denominator ≤ numerator / denominator + 1 := by
  simp only [roundQuotient]
  split
  · omega
  · split
    · omega
    · cases tie with
      | toEven =>
        have parity := Nat.mod_lt (numerator / denominator) (show 0 < 2 by decide)
        show numerator / denominator + numerator / denominator % 2 ≤ numerator / denominator + 1
        omega
      | up => exact Nat.le_refl _

namespace Binary64

/-- A power with an exponent of either sign as a quotient of naturals. -/
theorem zpow_eq_div (base : Nat) (positive : 0 < base) (exponent : Int) :
    (base : ℚ) ^ exponent = (base ^ exponent.toNat : Nat) / (base ^ (-exponent).toNat : Nat) := by
  have nonzero : (base : ℚ) ≠ 0 := by exact_mod_cast Nat.pos_iff_ne_zero.1 positive
  have split : exponent = (exponent.toNat : Int) - ((-exponent).toNat : Int) := by omega
  conv_lhs => rw [split]
  rw [zpow_sub₀ nonzero, zpow_natCast, zpow_natCast]
  push_cast
  rfl

theorem zpow_two_le_iff (numerator denominator : Nat) (positive : 0 < denominator)
    (exponent : Int) :
    (2 : ℚ) ^ exponent ≤ (numerator : ℚ) / denominator ↔
      denominator * 2 ^ exponent.toNat ≤ numerator * 2 ^ (-exponent).toNat := by
  have denominator_pos : (0 : ℚ) < denominator := by exact_mod_cast positive
  have power_pos : (0 : ℚ) < (2 ^ (-exponent).toNat : Nat) := by positivity
  have power := zpow_eq_div 2 (by decide) exponent
  push_cast at power
  rw [power, div_le_div_iff₀ (by positivity) denominator_pos]
  rw [mul_comm ((2 : ℚ) ^ exponent.toNat)]
  exact_mod_cast Iff.rfl

/-- The estimate from the lengths of both numbers is at most one too great. -/
theorem floorLog2_eq_log (numerator denominator : Nat) (positive : 0 < numerator)
    (positive' : 0 < denominator) :
    floorLog2 numerator denominator = Int.log 2 ((numerator : ℚ) / denominator) := by
  have quotient_pos : (0 : ℚ) < (numerator : ℚ) / denominator := by positivity
  have least := Nat.log2_self_le (Nat.pos_iff_ne_zero.1 positive)
  have most := Nat.lt_log2_self (n := numerator)
  have least' := Nat.log2_self_le (Nat.pos_iff_ne_zero.1 positive')
  have most' := Nat.lt_log2_self (n := denominator)
  have upper : Int.log 2 ((numerator : ℚ) / denominator) <
      (numerator.log2 : Int) - denominator.log2 + 1 := by
    rw [← Int.lt_zpow_iff_log_lt (by decide) quotient_pos]
    have split : (numerator.log2 : Int) - denominator.log2 + 1 =
        ((numerator.log2 + 1 : Nat) : Int) - (denominator.log2 : Nat) := by omega
    rw [split, zpow_sub₀ (by norm_num), zpow_natCast, zpow_natCast,
      div_lt_div_iff₀ (by positivity) (by positivity)]
    have product : numerator * 2 ^ denominator.log2 < 2 ^ (numerator.log2 + 1) * denominator :=
      Nat.mul_lt_mul_of_lt_of_le most least' positive'
    exact_mod_cast product
  have lower : (numerator.log2 : Int) - denominator.log2 - 1 ≤
      Int.log 2 ((numerator : ℚ) / denominator) := by
    rw [← Int.zpow_le_iff_le_log (by decide) quotient_pos]
    have split : (numerator.log2 : Int) - denominator.log2 - 1 =
        (numerator.log2 : Nat) - ((denominator.log2 + 1 : Nat) : Int) := by omega
    rw [split, zpow_sub₀ (by norm_num), zpow_natCast, zpow_natCast,
      div_le_div_iff₀ (by positivity) (by positivity)]
    have product : 2 ^ numerator.log2 * denominator ≤ numerator * 2 ^ (denominator.log2 + 1) :=
      Nat.mul_le_mul least (Nat.le_of_lt most')
    exact_mod_cast product
  have reached := Int.zpow_le_iff_le_log (b := 2) (by decide)
    (x := (numerator.log2 : Int) - denominator.log2) quotient_pos
  have decided := zpow_two_le_iff numerator denominator positive'
    ((numerator.log2 : Int) - denominator.log2)
  simp only [Nat.cast_ofNat] at reached
  simp only [floorLog2, Nat.shiftLeft_eq]
  split
  · rename_i enough
    have reaches := reached.1 (decided.2 enough)
    omega
  · rename_i short
    have falls : ¬ (numerator.log2 : Int) - denominator.log2 ≤
        Int.log 2 ((numerator : ℚ) / denominator) := fun reaches =>
      short (decided.1 (reached.2 reaches))
    omega

/-- Quotients of one value have one nearest number. -/
theorem nearestMagnitude_congr {numerator denominator numerator' denominator' : Nat}
    (positive : 0 < numerator) (positive' : 0 < denominator) (positive'' : 0 < denominator')
    (same : numerator * denominator' = numerator' * denominator) :
    nearestMagnitude numerator denominator = nearestMagnitude numerator' denominator' := by
  have numerator_pos : 0 < numerator' := by
    apply Nat.pos_of_mul_pos_right (b := denominator)
    rw [← same]
    exact Nat.mul_pos positive positive''
  have quotient : (numerator : ℚ) / denominator = (numerator' : ℚ) / denominator' := by
    rw [div_eq_div_iff (by positivity) (by positivity)]
    exact_mod_cast same
  have scale : floorLog2 numerator denominator = floorLog2 numerator' denominator' := by
    rw [floorLog2_eq_log _ _ positive positive', floorLog2_eq_log _ _ numerator_pos positive'',
      quotient]
  simp only [nearestMagnitude, scale, Nat.shiftLeft_eq]
  rw [roundQuotient_congr]
  · exact Nat.mul_pos positive' (Nat.pow_pos (by decide))
  · exact Nat.mul_pos positive'' (Nat.pow_pos (by decide))
  · rw [Nat.mul_mul_mul_comm, same, Nat.mul_mul_mul_comm]

theorem digitsOf_mul_ten (n : Nat) (positive : 0 < n) :
    Text.digitsOf (n * 10) = Text.digitsOf n ++ [Text.Digit.zero] := by
  rw [Text.digitsOf, if_neg (by omega), Nat.mul_div_cancel _ (by decide)]
  simp [Text.Digit.zero]

theorem length_digitsOf_mul_pow (n zeros : Nat) (positive : 0 < n) :
    (Text.digitsOf (n * 10 ^ zeros)).length = (Text.digitsOf n).length + zeros := by
  induction zeros with
  | zero => simp
  | succ zeros ih =>
    rw [Nat.pow_succ, ← Nat.mul_assoc,
      digitsOf_mul_ten _ (Nat.mul_pos positive (Nat.pow_pos (by decide))), List.length_append, ih]
    simp only [List.length_singleton]
    omega

/-- Zeros at the end of the significand may be traded for the exponent. -/
theorem ofDecimal_shift (negative : Bool) (significand : Nat) (exponent : Int) (zeros : Nat) :
    ofDecimal ⟨negative, significand * 10 ^ zeros, exponent - zeros⟩ =
      ofDecimal ⟨negative, significand, exponent⟩ := by
  by_cases zero : significand = 0
  · simp [ofDecimal, zero]
  · have positive : 0 < significand := Nat.pos_of_ne_zero zero
    have shifted : significand * 10 ^ zeros ≠ 0 :=
      Nat.pos_iff_ne_zero.1 (Nat.mul_pos positive (Nat.pow_pos (by decide)))
    have magnitude : exponent - zeros + ((Text.digitsOf (significand * 10 ^ zeros)).length : Int) =
        exponent + (Text.digitsOf significand).length := by
      rw [length_digitsOf_mul_pow _ _ positive]
      omega
    have exponents : zeros + (exponent - zeros).toNat + (-exponent).toNat =
        exponent.toNat + (-(exponent - zeros)).toNat := by omega
    have same : significand * 10 ^ zeros * 10 ^ (exponent - zeros).toNat * 10 ^ (-exponent).toNat =
        significand * 10 ^ exponent.toNat * 10 ^ (-(exponent - zeros)).toNat := by
      rw [Nat.mul_assoc, Nat.mul_assoc, Nat.mul_assoc, ← Nat.pow_add, ← Nat.pow_add,
        ← Nat.pow_add, ← exponents, Nat.add_assoc]
    simp only [ofDecimal, zero, shifted, magnitude, Nat.pow_eq]
    rw [nearestMagnitude_congr _ _ _ same]
    · exact Nat.mul_pos (Nat.pos_of_ne_zero shifted) (Nat.pow_pos (by decide))
    · exact Nat.pow_pos (by decide)
    · exact Nat.pow_pos (by decide)

theorem isFinite_ofMagnitude (negative : Bool) (magnitude : Nat)
    (small : magnitude < infiniteMagnitude) : (ofMagnitude negative magnitude).isFinite = true := by
  have bound : magnitude < 2047 * 2 ^ 52 := small
  have same : (ofMagnitude negative magnitude).magnitude = magnitude := by
    simp only [Binary64.magnitude, ofMagnitude, BitVec.toNat_ofNat, Nat.shiftLeft_eq, Nat.one_mul]
    split <;> omega
  rw [isFinite, same]
  exact decide_eq_true small

/-- Natural numbers below 2 ^ 64 keep away from the infinite ones. -/
theorem nearestMagnitude_lt (n : Nat) (positive : 0 < n) (small : n < 2 ^ 64) :
    nearestMagnitude n 1 < infiniteMagnitude := by
  have log : n.log2 < 64 := (Nat.log2_lt (Nat.pos_iff_ne_zero.1 positive)).2 small
  have floor : floorLog2 n 1 = n.log2 := by
    have reached := Nat.log2_self_le (Nat.pos_iff_ne_zero.1 positive)
    have unit : Nat.log2 1 = 0 := by decide
    simp [floorLog2, unit, Nat.shiftLeft_eq, reached]
  have above := Nat.lt_log2_self (n := n)
  have quotient : n * 2 ^ (-((n.log2 : Int) - 52)).toNat / (1 * 2 ^ ((n.log2 : Int) - 52).toNat)
      < 2 ^ 53 := by
    rw [Nat.div_lt_iff_lt_mul (by positivity), Nat.one_mul, ← Nat.pow_add]
    have product : n * 2 ^ (-((n.log2 : Int) - 52)).toNat
        < 2 ^ (n.log2 + 1) * 2 ^ (-((n.log2 : Int) - 52)).toNat :=
      Nat.mul_lt_mul_of_pos_right above (by positivity)
    have exponents : n.log2 + 1 + (-((n.log2 : Int) - 52)).toNat =
        53 + ((n.log2 : Int) - 52).toNat := by omega
    rwa [← Nat.pow_add, exponents] at product
  have scale : max ((n.log2 : Int) - 52) (-1074) = (n.log2 : Int) - 52 := by omega
  have rounded := roundQuotient_le .toEven (n * 2 ^ (-((n.log2 : Int) - 52)).toNat)
    (1 * 2 ^ ((n.log2 : Int) - 52).toNat)
  simp only [nearestMagnitude, floor, scale, infiniteMagnitude, Nat.shiftLeft_eq]
  omega

theorem isFinite_ofDecimal_nat (n : Nat) (small : n < 2 ^ 64) :
    (ofDecimal ⟨false, n, 0⟩).isFinite = true := by
  by_cases none : n = 0
  · subst none
    decide
  · have positive := Nat.pos_of_ne_zero none
    have short := Text.length_digitsOf_le n 20 (by decide) (by omega)
    have below : ¬ (310 : Int) < 0 + (Text.digitsOf n).length := by omega
    have above : ¬ ((0 : Int) + (Text.digitsOf n).length < -330) := by omega
    simp only [ofDecimal, none, above, below, or_self, if_false]
    apply isFinite_ofMagnitude
    simpa using nearestMagnitude_lt n positive small

end Binary64

end JobDispatch
