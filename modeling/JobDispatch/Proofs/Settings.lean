import JobDispatch.Settings
import Mathlib.Algebra.Group.Nat.Defs
set_option autoImplicit false

/- Pauses in exact numbers. The product stops at the greatest number, which is no shorter than any
pause. The factor stops at the last bit of a word, and in one case this can be told from the
pause. -/
namespace JobDispatch

theorem toNat_saturatingMul (a b : UInt64) :
    (saturatingMul a b).toNat = min (a.toNat * b.toNat) (2 ^ 64 - 1) := by
  unfold saturatingMul UInt64.size
  split
  · rename_i within
    rw [UInt64.toNat_mul, Nat.mod_eq_of_lt within]
    omega
  · rename_i beyond
    rw [UInt64.toNat_ofNat_of_lt' (by decide)]
    omega

theorem toNat_saturatingSucc (n : UInt32) :
    (saturatingSucc n).toNat = min (n.toNat + 1) (2 ^ 32 - 1) := by
  have bound := n.toNat_lt
  unfold saturatingSucc UInt32.size
  split
  · rename_i last
    subst last
    decide
  · rename_i inside
    have apart : n.toNat ≠ 2 ^ 32 - 1 := fun same => inside (UInt32.toNat_inj.1 same)
    rw [UInt32.toNat_add, UInt32.toNat_one]
    omega

namespace Backoff

theorem toNat_clamp (attempt : UInt32) : (min attempt 63).toNat = min attempt.toNat 63 := by
  have last : (63 : UInt32).toNat = 63 := rfl
  show (if attempt ≤ 63 then attempt else 63).toNat = _
  split
  all_goals
    rename_i order
    rw [UInt32.le_iff_toNat_le, last] at order
    omega

/-- The factor doubles with each attempt up to the last bit of a word. -/
theorem toNat_factor (attempt : UInt32) :
    ((1 : UInt64) <<< (min attempt 63).toUInt64).toNat = 2 ^ min attempt.toNat 63 := by
  have bound : 2 ^ min attempt.toNat 63 < 2 ^ 64 :=
    Nat.pow_lt_pow_right (by decide) (by omega)
  have inside : min attempt.toNat 63 % 64 = min attempt.toNat 63 := Nat.mod_eq_of_lt (by omega)
  rw [UInt64.toNat_shiftLeft, UInt32.toNat_toUInt64, toNat_clamp, inside, UInt64.toNat_one,
    Nat.one_shiftLeft, Nat.mod_eq_of_lt bound]

/-- The pause is the first one times the factor, and the greatest one at most. -/
theorem toNat_delay (backoff : Backoff) (attempt : UInt32) :
    (backoff.delay attempt).toNat =
      min (backoff.initialMs.toNat * 2 ^ min attempt.toNat 63) backoff.maxMs.toNat := by
  have bound := backoff.maxMs.toNat_lt
  have least (a b : UInt64) : (min a b).toNat = min a.toNat b.toNat := by
    show (if a ≤ b then a else b).toNat = _
    split
    all_goals
      rename_i order
      rw [UInt64.le_iff_toNat_le] at order
      omega
  rw [delay, least, toNat_saturatingMul, toNat_factor]
  omega

/-- A later pause is no shorter. -/
theorem delay_mono (backoff : Backoff) {early late : UInt32} (order : early ≤ late) :
    backoff.delay early ≤ backoff.delay late := by
  rw [UInt32.le_iff_toNat_le] at order
  have factors : 2 ^ min early.toNat 63 ≤ 2 ^ min late.toNat 63 :=
    Nat.pow_le_pow_right (by decide) (by omega)
  have products := Nat.mul_le_mul_left backoff.initialMs.toNat factors
  rw [UInt64.le_iff_toNat_le, toNat_delay, toNat_delay]
  omega

theorem delay_le_maxMs (backoff : Backoff) (attempt : UInt32) :
    backoff.delay attempt ≤ backoff.maxMs := by
  rw [UInt64.le_iff_toNat_le, toNat_delay]
  exact Nat.min_le_right ..

/-- The pause is the first one, doubled with each attempt, or the greatest one if that is shorter,
in exact numbers. There is one exception: a first pause of one millisecond is doubled sixty-three
times and no more, where the greatest pause would leave room for it. -/
theorem delay_exact_but_last_bit (backoff : Backoff) (attempt : UInt32) :
    (backoff.delay attempt).toNat =
      if backoff.initialMs = 1 ∧ 63 < attempt ∧ 2 ^ 63 < backoff.maxMs.toNat then 2 ^ 63
      else min (backoff.initialMs.toNat * 2 ^ attempt.toNat) backoff.maxMs.toNat := by
  have bound := backoff.maxMs.toNat_lt
  have one : backoff.initialMs = 1 ↔ backoff.initialMs.toNat = 1 := UInt64.toNat_inj.symm
  have many : 63 < attempt ↔ 63 < attempt.toNat := UInt32.lt_iff_toNat_lt
  simp only [toNat_delay, one, many]
  rcases Nat.lt_or_ge 63 attempt.toNat with beyond | within
  · have doubled : 2 ^ 64 ≤ 2 ^ attempt.toNat := Nat.pow_le_pow_right (by decide) beyond
    rw [Nat.min_eq_right (Nat.le_of_lt beyond)]
    rcases Nat.lt_trichotomy backoff.initialMs.toNat 1 with none | single | more
    · rw [Nat.lt_one_iff] at none
      simp [none]
    · rw [single]
      split <;> omega
    · -- two milliseconds times the last factor are longer than any pause, as is the exact number
      have last := Nat.mul_le_mul_right (2 ^ 63) more
      have exact := Nat.mul_le_mul more doubled
      rw [if_neg (by omega)]
      omega
  · rw [Nat.min_eq_left within, if_neg (by omega)]

/-- The sixty-fourth doubling of one millisecond is left out. -/
theorem delay_half_of_exact :
    let backoff : Backoff := ⟨1, UInt64.ofNat (UInt64.size - 1)⟩
    (backoff.delay 64).toNat = 2 ^ 63
      ∧ (backoff.delay 64).toNat ≠
        min (backoff.initialMs.toNat * 2 ^ (64 : UInt32).toNat) backoff.maxMs.toNat := by
  decide

end Backoff

end JobDispatch
