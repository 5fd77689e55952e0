import JobDispatch.Text.Digit
import JobDispatch.Binary64.Basic
set_option autoImplicit false

namespace JobDispatch

/-- Where a value goes that lies halfway between two neighbours. -/
inductive Tie where
  | toEven
  | up
deriving DecidableEq, Repr

/-- The natural number nearest to `numerator / denominator`. -/
def roundQuotient (tie : Tie) (numerator denominator : Nat) : Nat :=
  let quotient := numerator / denominator
  let twice := 2 * (numerator % denominator)
  if twice < denominator then quotient
  else if denominator < twice then quotient + 1
  else match tie with
    | .toEven => quotient + quotient % 2
    | .up => quotient + 1

theorem roundQuotient_of_dvd (tie : Tie) (quotient denominator : Nat) (h : 0 < denominator) :
    roundQuotient tie (quotient * denominator) denominator = quotient := by
  simp [roundQuotient, Nat.mul_div_cancel _ h, h]

/-- A decimal: a significand times a power of ten, with a sign that zero keeps too. -/
structure Decimal where
  negative : Bool
  significand : Nat
  exponent : Int
deriving DecidableEq, Repr

namespace Binary64

/-- The exponent of the greatest power of two that is at most the quotient. -/
def floorLog2 (numerator denominator : Nat) : Int :=
  let estimate := (numerator.log2 : Int) - denominator.log2
  if denominator <<< estimate.toNat ≤ numerator <<< (-estimate).toNat then estimate
  else estimate - 1

/-- The magnitude field nearest to a positive quotient; what is too great becomes infinite. -/
def nearestMagnitude (numerator denominator : Nat) : Nat :=
  let scale := max (floorLog2 numerator denominator - 52) (-1074)
  let mantissa :=
    roundQuotient .toEven (numerator <<< (-scale).toNat) (denominator <<< scale.toNat)
  min (((scale + 1074).toNat <<< 52) + mantissa) infiniteMagnitude

/-- The number nearest to a decimal. Below 10 ^ -330 all is zero and from 10 ^ 310 on all is
infinite, so that no power of ten beyond these is ever formed. -/
def ofDecimal (decimal : Decimal) : Binary64 :=
  let magnitudeOfTen := decimal.exponent + (Text.digitsOf decimal.significand).length
  if decimal.significand = 0 ∨ magnitudeOfTen < -330 then zero decimal.negative
  else if 310 < magnitudeOfTen then infinity decimal.negative
  else ofMagnitude decimal.negative
    (nearestMagnitude (decimal.significand * Nat.pow 10 decimal.exponent.toNat)
      (Nat.pow 10 (-decimal.exponent).toNat))

end Binary64

end JobDispatch
