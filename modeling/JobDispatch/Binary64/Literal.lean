import JobDispatch.Binary64.Nearest
set_option autoImplicit false

namespace JobDispatch

open Text

namespace Binary64

/-- A sign, if there is one, and what follows it. -/
def readSign : List Char → Bool × List Char
  | '-' :: rest => (true, rest)
  | '+' :: rest => (false, rest)
  | rest => (false, rest)

/-- Digits after a point, if there is one. -/
def readPlaces : List Char → List Digit × List Char
  | '.' :: rest => spanDigits rest
  | rest => ([], rest)

/-- The exponent that ends a number; without one it is zero. -/
def readExponent? : List Char → Option Int
  | [] => some 0
  | c :: rest =>
    if c = 'e' ∨ c = 'E' then
      let (negative, digits) := readSign rest
      (natOfText? digits).map fun n => if negative then -(n : Int) else n
    else none

/-- A number with at least one digit before or after its point. -/
def ofDigitText? (negative : Bool) (text : List Char) : Option Binary64 := do
  let (whole, rest) := spanDigits text
  let (places, rest) := readPlaces rest
  if whole.isEmpty && places.isEmpty then none
  let exponent ← readExponent? rest
  some (ofDecimal ⟨negative, ofDigits (whole ++ places), exponent - places.length⟩)

/-- Reads a number; the names of the values without digits may be in any case. -/
def ofText? (text : String) : Option Binary64 :=
  let (negative, rest) := readSign text.toList
  match String.ofList (rest.map Char.toLower) with
  | "inf" => some (infinity negative)
  | "infinity" => some (infinity negative)
  | "nan" => some (notANumber negative)
  | _ => ofDigitText? negative rest

end Binary64

end JobDispatch
