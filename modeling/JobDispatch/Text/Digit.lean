set_option autoImplicit false

namespace JobDispatch.Text

/-- A decimal digit. -/
abbrev Digit := Fin 10

namespace Digit

def zero : Digit := ⟨0, by decide⟩

def char (digit : Digit) : Char := Char.ofNat (48 + digit.val)

def ofChar? (c : Char) : Option Digit :=
  if h : 48 ≤ c.toNat ∧ c.toNat < 58 then some ⟨c.toNat - 48, by omega⟩ else none

@[simp] theorem ofChar?_char (digit : Digit) : ofChar? digit.char = some digit := by
  revert digit
  decide

end Digit

/-- The number that a run of digits names; an empty run names zero. -/
def ofDigits (digits : List Digit) : Nat :=
  digits.foldl (fun value digit => 10 * value + digit.val) 0

/-- The digits of a number, without leading zeros; zero has one digit. -/
def digitsOf (n : Nat) : List Digit :=
  if n < 10 then [⟨n % 10, Nat.mod_lt n (by decide)⟩]
  else digitsOf (n / 10) ++ [⟨n % 10, Nat.mod_lt n (by decide)⟩]
termination_by n
decreasing_by omega

theorem ofDigits_append (front back : List Digit) :
    ofDigits (front ++ back) =
      back.foldl (fun value digit => 10 * value + digit.val) (ofDigits front) := by
  simp [ofDigits]

@[simp] theorem ofDigits_digitsOf (n : Nat) : ofDigits (digitsOf n) = n := by
  fun_induction digitsOf n with
  | case1 n small => simp [ofDigits, Nat.mod_eq_of_lt small]
  | case2 n _ ih =>
    rw [ofDigits_append, ih]
    simp only [List.foldl_cons, List.foldl_nil]
    omega

def numeral (n : Nat) : List Char := (digitsOf n).map Digit.char

/-- The text of a number with zeros in front up to a least width. -/
def paddedNumeral (width n : Nat) : List Char :=
  let text := numeral n
  List.replicate (width - text.length) '0' ++ text

/-- The images of the leading items that have one, and the items from the first that has none. -/
def spanMap {α β : Type} (image? : α → Option β) : List α → List β × List α
  | [] => ([], [])
  | item :: rest =>
    match image? item with
    | some image => (image :: (spanMap image? rest).1, (spanMap image? rest).2)
    | none => ([], item :: rest)

/-- The leading run of digits of a text, and what follows it. -/
def spanDigits (text : List Char) : List Digit × List Char := spanMap Digit.ofChar? text

/-- At most `limit` leading digits of a text, and what follows them. -/
def takeDigits : Nat → List Char → List Digit × List Char
  | 0, text => ([], text)
  | _ + 1, [] => ([], [])
  | limit + 1, c :: rest =>
    match Digit.ofChar? c with
    | some digit => (digit :: (takeDigits limit rest).1, (takeDigits limit rest).2)
    | none => ([], c :: rest)

/-- A text of one or more digits and nothing else, as a number. -/
def natOfText? (text : List Char) : Option Nat :=
  match spanDigits text with
  | (digit :: digits, []) => some (ofDigits (digit :: digits))
  | _ => none

end JobDispatch.Text
