import JobDispatch.Binary64.Nearest
set_option autoImplicit false

/- Writing a number: the fewest decimal digits that read back to it, or a fixed number of places.
A candidate is accepted by reading it, so what is written always reads back. -/
namespace JobDispatch

namespace Decimal

/-- The same value without zeros at the end of the significand; a zero significand stays. -/
def trimmed (negative : Bool) (significand : Nat) (exponent : Int) : Decimal :=
  if significand ≠ 0 ∧ significand % 10 = 0 then
    trimmed negative (significand / 10) (exponent + 1)
  else ⟨negative, significand, exponent⟩
termination_by significand
decreasing_by omega

/-- The digits before and after the point, without an exponent. There is at least one digit before
the point, and none after it when the value is written as a whole number. -/
def positional (decimal : Decimal) : List Text.Digit × List Text.Digit :=
  let digits := Text.digitsOf decimal.significand
  let places := (-decimal.exponent).toNat
  let whole := digits ++ List.replicate decimal.exponent.toNat Text.Digit.zero
  let padded := List.replicate (places + 1 - whole.length) Text.Digit.zero ++ whole
  (padded.take (padded.length - places), padded.drop (padded.length - places))

/-- The exponent of the first digit, in scientific form. -/
def leadingExponent (decimal : Decimal) : Int :=
  decimal.exponent + (Text.digitsOf decimal.significand).length - 1

end Decimal

namespace Binary64

/-- A decimal that reads back to the number. -/
def isReadFrom (x : Binary64) (decimal : Decimal) : Bool := decide (ofDecimal decimal = x)

/-- The exponent `p` with `10 ^ (p - 1) ≤ |x| < 10 ^ p`, for a finite number that is not zero. -/
def decimalPoint (x : Binary64) : Int :=
  ((Text.digitsOf (x.ratio.1 * Nat.pow 10 330 / x.ratio.2)).length : Int) - 330

/-- Of the two neighbours of the value among the decimals with `count` digits, one that reads back:
the nearer one when both do, and at equal distance the one that `tie` names. -/
def candidate? (tie : Tie) (x : Binary64) (count : Nat) : Option Decimal :=
  let exponent := x.decimalPoint - count
  let numerator := x.ratio.1 * Nat.pow 10 (-exponent).toNat
  let denominator := x.ratio.2 * Nat.pow 10 exponent.toNat
  let below := numerator / denominator
  let nearest := roundQuotient tie numerator denominator
  let other := if nearest = below then below + 1 else below
  let first : Decimal := ⟨x.isNegative, nearest, exponent⟩
  let second : Decimal := ⟨x.isNegative, other, exponent⟩
  if x.isReadFrom first then some first
  else if x.isReadFrom second then some second
  else none

/-- The decimal with the fewest digits that reads back to a finite number. -/
def shortest (tie : Tie) (x : Binary64) : Decimal :=
  if x.magnitude = 0 then ⟨x.isNegative, 0, 0⟩
  else match (List.range' 1 17).findSome? (x.candidate? tie) with
    | some decimal => Decimal.trimmed decimal.negative decimal.significand decimal.exponent
    | none => ⟨x.isNegative, x.ratio.1 * Nat.pow 5 (-x.scale).toNat, -((-x.scale).toNat : Int)⟩

/-- The exact value rounded to a number of decimal places, a half going to the even neighbour. -/
def rounded (places : Nat) (x : Binary64) : Decimal :=
  ⟨x.isNegative, roundQuotient .toEven (x.ratio.1 * Nat.pow 10 places) x.ratio.2, -(places : Int)⟩

/-- The text of a decimal in positional notation. -/
def positionalText (decimal : Decimal) : List Char :=
  let parts := decimal.positional
  (if decimal.negative then ['-'] else []) ++ parts.1.map Text.Digit.char
    ++ (if parts.2.isEmpty then [] else '.' :: parts.2.map Text.Digit.char)

/-- The text in messages: the shortest digits, halves up, never an exponent, and names for the
patterns that have no digits. -/
def plainText (x : Binary64) : String :=
  if x.isNaN then "NaN"
  else if !x.isFinite then (if x.isNegative then "-inf" else "inf")
  else String.ofList (positionalText (x.shortest .up))

/-- The text in tables: a fixed number of places. -/
def fixedText (places : Nat) (x : Binary64) : String :=
  String.ofList (positionalText (x.rounded places))

end Binary64

end JobDispatch
