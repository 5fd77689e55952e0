set_option autoImplicit false

/- The binary interchange format of 64 bits, held as its bit pattern. Comparisons and values are
read off the three fields, so that nothing here depends on the machine's arithmetic. -/
namespace JobDispatch

/-- A number of the 64-bit binary format: sign, eleven exponent bits, fifty-two fraction bits. -/
structure Binary64 where
  bits : BitVec 64
deriving DecidableEq, Repr

namespace Binary64

def isNegative (x : Binary64) : Bool := x.bits.msb

/-- Exponent and fraction fields as one number, the sign bit taken away. -/
def magnitude (x : Binary64) : Nat := x.bits.toNat % (1 <<< 63)

def exponentField (x : Binary64) : Nat := x.magnitude >>> 52

def fractionField (x : Binary64) : Nat := x.magnitude % (1 <<< 52)

/-- The magnitude of the two infinities; every greater one is not a number. -/
def infiniteMagnitude : Nat := 2047 <<< 52

/-- Neither infinite nor not-a-number. -/
def isFinite (x : Binary64) : Bool := decide (x.magnitude < infiniteMagnitude)

/-- The pattern is no number at all. -/
def isNaN (x : Binary64) : Bool := decide (infiniteMagnitude < x.magnitude)

/-- The number with a given sign and magnitude field. -/
def ofMagnitude (negative : Bool) (magnitude : Nat) : Binary64 :=
  ⟨BitVec.ofNat 64 (magnitude % (1 <<< 63) + if negative then 1 <<< 63 else 0)⟩

def zero (negative : Bool) : Binary64 := ofMagnitude negative 0

def infinity (negative : Bool) : Binary64 := ofMagnitude negative infiniteMagnitude

/-- The quiet pattern with no payload. -/
def notANumber (negative : Bool) : Binary64 := ofMagnitude negative (4095 <<< 51)

/-- A finite number is its mantissa times two to its scale. -/
def mantissa (x : Binary64) : Nat :=
  if x.exponentField = 0 then x.fractionField else (1 <<< 52) + x.fractionField

/-- The power of two that the mantissa counts. -/
def scale (x : Binary64) : Int :=
  if x.exponentField = 0 then -1074 else (x.exponentField : Int) - 1075

/-- The absolute value of a finite number as a quotient of naturals. -/
def ratio (x : Binary64) : Nat × Nat :=
  (x.mantissa <<< x.scale.toNat, 1 <<< (-x.scale).toNat)

/-- Position on the number line: both zeros stand at zero, the infinities at the ends. -/
def rank (x : Binary64) : Int := if x.isNegative then -(x.magnitude : Int) else x.magnitude

/-- The numeric order; nothing is less or greater than a pattern that is no number. -/
def lt (x y : Binary64) : Bool := !x.isNaN && !y.isNaN && decide (x.rank < y.rank)

/-- Place in the total order of all patterns: negative ones count down from the negative zero. -/
def totalRank (x : Binary64) : Int :=
  if x.isNegative then -(x.magnitude : Int) - 1 else x.magnitude

/-- The total order: -NaN, -∞, …, -0, +0, …, ∞, NaN. -/
def totalLe (x y : Binary64) : Bool := decide (x.totalRank ≤ y.totalRank)

/-- Neither infinite, nor not-a-number, nor below zero; a negative zero passes. -/
def isNonNegative (x : Binary64) : Bool := x.isFinite && !x.lt (zero false)

theorem totalLe_refl (x : Binary64) : x.totalLe x = true := by simp [totalLe]

theorem totalLe_trans (x y z : Binary64) (hxy : x.totalLe y) (hyz : y.totalLe z) :
    x.totalLe z = true := by
  simp only [totalLe, decide_eq_true_eq] at *
  omega

theorem totalLe_total (x y : Binary64) : (x.totalLe y || y.totalLe x) = true := by
  simp only [totalLe, Bool.or_eq_true, decide_eq_true_eq]
  omega

end Binary64

end JobDispatch
