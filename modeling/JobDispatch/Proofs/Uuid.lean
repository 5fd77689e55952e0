import JobDispatch.Uuid
import Mathlib.Algebra.Group.Nat.Defs
set_option autoImplicit false

namespace JobDispatch.Uuid

/-- The identifier whose digits are those of a number, the last place first. -/
def ofNat (n : Nat) : Uuid :=
  ⟨(List.range 32).map fun place => Fin.ofNat 16 (n / 16 ^ place), by simp⟩

theorem mapM_ofChar?_char (digits : List HexDigit) :
    (digits.map HexDigit.char).mapM HexDigit.ofChar? = some digits := by
  induction digits with
  | nil => rfl
  | cons digit digits ih => simp [ih]

theorem ofPlain?_char (id : Uuid) : ofPlain? (id.digits.map HexDigit.char) = some id := by
  rw [ofPlain?, mapM_ofChar?_char]
  exact ofDigits?_digits id

/-- The characters between the hyphens are the characters that were hyphenated. -/
theorem ofHyphenated?_hyphenate (text : List Char) (long : text.length = 32) :
    ofHyphenated? (hyphenate text) = ofPlain? text := by
  have plain : (hyphenate text).take 8 ++ ((hyphenate text).drop 9).take 4
      ++ ((hyphenate text).drop 14).take 4 ++ ((hyphenate text).drop 19).take 4
      ++ (hyphenate text).drop 24 = text := by
    apply List.ext_getElem?
    intro index
    simp only [hyphenate, List.getElem?_append, List.getElem?_take, List.getElem?_drop,
      List.getElem?_cons, List.length_append, List.length_take, List.length_drop,
      List.length_cons, long]
    grind
  rw [ofHyphenated?]
  simp only [plain, if_true]

theorem length_hyphenate (text : List Char) (long : text.length = 32) :
    (hyphenate text).length = 36 := by
  simp [hyphenate, long]

/-- Reading the text of an identifier gives the identifier. -/
theorem ofText?_text (id : Uuid) : ofText? id.text = some id := by
  have long : (id.digits.map HexDigit.char).length = 32 := by simp [id.length_eq]
  simp only [ofText?, text, String.toList_ofList, length_hyphenate _ long]
  rw [ofHyphenated?_hyphenate _ long, ofPlain?_char]

end JobDispatch.Uuid
