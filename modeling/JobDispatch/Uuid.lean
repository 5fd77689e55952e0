set_option autoImplicit false

namespace JobDispatch

abbrev HexDigit := Fin 16

namespace HexDigit

def char (digit : HexDigit) : Char :=
  if digit.val < 10 then Char.ofNat (48 + digit.val) else Char.ofNat (87 + digit.val)

/-- The digit that a character writes, in either case. -/
def ofChar? (c : Char) : Option HexDigit :=
  let n := c.toNat
  if h : 48 ≤ n ∧ n < 58 then some ⟨n - 48, by omega⟩
  else if h : 97 ≤ n ∧ n < 103 then some ⟨n - 87, by omega⟩
  else if h : 65 ≤ n ∧ n < 71 then some ⟨n - 55, by omega⟩
  else none

@[simp] theorem ofChar?_char (digit : HexDigit) : ofChar? digit.char = some digit := by
  revert digit
  decide

end HexDigit

/-- An identifier of 128 bits. -/
structure Uuid where
  digits : List HexDigit
  length_eq : digits.length = 32
deriving DecidableEq, Repr

namespace Uuid

/-- The identifier with these digits, if there are thirty-two of them. -/
def ofDigits? (digits : List HexDigit) : Option Uuid :=
  if h : digits.length = 32 then some ⟨digits, h⟩ else none

@[simp] theorem ofDigits?_digits (id : Uuid) : ofDigits? id.digits = some id := by
  simp [ofDigits?, id.length_eq]

/-- Puts hyphens after 8, 12, 16 and 20 of the characters. -/
def hyphenate (text : List Char) : List Char :=
  text.take 8 ++ '-' :: (text.drop 8).take 4 ++ '-' :: (text.drop 12).take 4
    ++ '-' :: (text.drop 16).take 4 ++ '-' :: text.drop 20

/-- The text of an identifier: lower case, with hyphens. -/
def text (id : Uuid) : String := String.ofList (hyphenate (id.digits.map HexDigit.char))

/-- Thirty-two digits and nothing else. -/
def ofPlain? (text : List Char) : Option Uuid :=
  (text.mapM HexDigit.ofChar?).bind ofDigits?

/-- Thirty-six characters with hyphens in the usual places. -/
def ofHyphenated? (text : List Char) : Option Uuid :=
  let plain := text.take 8 ++ (text.drop 9).take 4 ++ (text.drop 14).take 4
    ++ (text.drop 19).take 4 ++ text.drop 24
  if text = hyphenate plain then ofPlain? plain else none

/-- The letters of the name `urn:uuid:`, in either case. -/
def isUrnHead (text : List Char) : Bool := text.map Char.toLower == "urn:uuid:".toList

/-- Reads thirty-two digits, the form with hyphens, that form in braces, or that form after
`urn:uuid:`; the length of the text tells which. -/
def ofText? (text : String) : Option Uuid :=
  let chars := text.toList
  match chars.length with
  | 32 => ofPlain? chars
  | 36 => ofHyphenated? chars
  | 38 =>
    if chars.head? = some '\x7b' ∧ chars.getLast? = some '\x7d' then
      ofHyphenated? ((chars.drop 1).take 36)
    else none
  | 45 => if isUrnHead (chars.take 9) then ofHyphenated? (chars.drop 9) else none
  | _ => none

end Uuid

end JobDispatch
