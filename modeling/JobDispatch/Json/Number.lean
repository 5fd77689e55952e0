import JobDispatch.Binary64.Shortest
set_option autoImplicit false

namespace JobDispatch.Json

open Text

/-- The literal of a number: digits before the point, after it, and of the exponent, whose sign is
kept beside them. There is a point exactly when digits follow it. -/
structure Number where
  negative : Bool
  whole : List Digit
  fraction : List Digit
  exponent : Option (Bool × List Digit)
deriving DecidableEq, Repr

namespace Number

/-- The exponent as a number; without one it is zero. -/
def exponentValue (number : Number) : Int :=
  match number.exponent with
  | none => 0
  | some (true, digits) => -(ofDigits digits : Int)
  | some (false, digits) => ofDigits digits

def decimal (number : Number) : Decimal :=
  ⟨number.negative, ofDigits (number.whole ++ number.fraction),
    number.exponentValue - number.fraction.length⟩

/-- The nearest number of the 64-bit format; infinite when the literal is too great for it. -/
def toBinary64 (number : Number) : Binary64 := Binary64.ofDecimal number.decimal

/-- The 64-bit format holds a finite number near the literal. -/
def isReadable (number : Number) : Bool := number.toBinary64.isFinite

/-- The natural number that a literal without sign, point and exponent names. -/
def toNat? (number : Number) : Option Nat :=
  if number.negative || !number.fraction.isEmpty || number.exponent.isSome then none
  else some (ofDigits number.whole)

def ofNat (n : Nat) : Number := ⟨false, digitsOf n, [], none⟩

@[simp] theorem toNat?_ofNat (n : Nat) : (ofNat n).toNat? = some n := by simp [toNat?, ofNat]

/-- The literal of a finite number: the fewest digits that read back, in positional notation with
at least one place from 1e-5 up to below 1e16, else with one digit before the point and a signed
exponent. -/
def ofBinary64 (x : Binary64) : Number :=
  let decimal := x.shortest .toEven
  let leading := decimal.leadingExponent
  if decimal.significand = 0 ∨ (-5 ≤ leading ∧ leading < 16) then
    let parts := decimal.positional
    ⟨decimal.negative, parts.1, if parts.2.isEmpty then [Digit.zero] else parts.2, none⟩
  else
    let digits := digitsOf decimal.significand
    ⟨decimal.negative, digits.take 1, digits.drop 1,
      some (decide (leading < 0), digitsOf leading.natAbs)⟩

def text (number : Number) : List Char :=
  (if number.negative then ['-'] else []) ++ number.whole.map Digit.char
    ++ (if number.fraction.isEmpty then [] else '.' :: number.fraction.map Digit.char)
    ++ match number.exponent with
      | none => []
      | some (negative, digits) =>
        'e' :: (if negative then '-' else '+') :: digits.map Digit.char

end Number

end JobDispatch.Json
