import Mathlib.Tactic.Ring
import JobDispatch.Text.Digit
set_option autoImplicit false

namespace JobDispatch.Text

/-- Nothing that has an image stands at the head of the items. -/
def Stops {α β : Type} (image? : α → Option β) (items : List α) : Prop :=
  ∀ item rest, items = item :: rest → image? item = none

theorem stops_cons {α β : Type} {image? : α → Option β} {item : α} {rest : List α}
    (stops : image? item = none) : Stops image? (item :: rest) := by
  intro other others equal
  cases equal
  exact stops

/-- A run is read as a whole when what follows it does not go on with the run. -/
theorem spanMap_map_append {α β : Type} (image? : α → Option β) (write : β → α)
    (readable : ∀ b, image? (write b) = some b) (images : List β) (rest : List α)
    (stops : Stops image? rest) :
    spanMap image? (images.map write ++ rest) = (images, rest) := by
  induction images with
  | nil =>
    cases rest with
    | nil => rfl
    | cons item rest =>
      have none_at_head := stops item rest rfl
      simp [spanMap, none_at_head]
  | cons image images ih => simp [spanMap, readable, ih]

theorem takeDigits_map_append (digits : List Digit) (rest : List Char) :
    takeDigits digits.length (digits.map Digit.char ++ rest) = (digits, rest) := by
  induction digits with
  | nil => simp [takeDigits]
  | cons digit digits ih => simp [takeDigits, ih]

@[simp] theorem Digit.val_zero : Digit.zero.val = 0 := rfl

@[simp] theorem ofDigits_nil : ofDigits [] = 0 := rfl

private theorem foldl_digits (digits : List Digit) (start : Nat) :
    digits.foldl (fun value digit => 10 * value + digit.val) start =
      start * 10 ^ digits.length + ofDigits digits := by
  induction digits generalizing start with
  | nil => simp
  | cons digit digits ih =>
    have tail := ih digit.val
    have whole := ih (10 * start + digit.val)
    simp only [List.foldl_cons, ofDigits, Nat.mul_zero, Nat.zero_add, List.length_cons] at *
    rw [whole, tail, Nat.add_mul, Nat.pow_succ]
    ac_rfl

/-- Digits that follow shift the number of those before them. -/
theorem ofDigits_append_eq (front back : List Digit) :
    ofDigits (front ++ back) = ofDigits front * 10 ^ back.length + ofDigits back := by
  rw [ofDigits_append, foldl_digits]

theorem ofDigits_cons (digit : Digit) (digits : List Digit) :
    ofDigits (digit :: digits) = digit.val * 10 ^ digits.length + ofDigits digits := by
  have split := ofDigits_append_eq [digit] digits
  simpa [ofDigits] using split

@[simp] theorem ofDigits_replicate_zero (count : Nat) :
    ofDigits (List.replicate count Digit.zero) = 0 := by
  induction count with
  | zero => rfl
  | succ count ih => simp [List.replicate_succ, ofDigits_cons, ih]

theorem ofDigits_lt (digits : List Digit) : ofDigits digits < 10 ^ digits.length := by
  induction digits with
  | nil => simp
  | cons digit digits ih =>
    have small : digit.val ≤ 9 := by omega
    have lead := Nat.mul_le_mul_right (10 ^ digits.length) small
    rw [ofDigits_cons, List.length_cons, Nat.pow_succ]
    omega

theorem digitsOf_ne_nil (n : Nat) : digitsOf n ≠ [] := by
  rw [digitsOf]
  split <;> simp

theorem length_digitsOf_pos (n : Nat) : 0 < (digitsOf n).length :=
  List.length_pos_iff.2 (digitsOf_ne_nil n)

theorem lt_pow_length_digitsOf (n : Nat) : n < 10 ^ (digitsOf n).length := by
  simpa using ofDigits_lt (digitsOf n)

/-- No numeral is longer than it has to be. -/
theorem pow_length_digitsOf_le (n : Nat) (positive : 0 < n) :
    10 ^ ((digitsOf n).length - 1) ≤ n := by
  fun_induction digitsOf n with
  | case1 n small =>
    simp
    omega
  | case2 n large ih =>
    have nonempty := length_digitsOf_pos (n / 10)
    have earlier := ih (by omega)
    have shift : 10 ^ (digitsOf (n / 10)).length = 10 ^ ((digitsOf (n / 10)).length - 1) * 10 := by
      rw [← Nat.pow_succ, Nat.succ_eq_add_one, Nat.sub_add_cancel nonempty]
    simp only [List.length_append, List.length_singleton, Nat.add_sub_cancel]
    omega

theorem length_digitsOf_le (n width : Nat) (positive : 0 < width) (small : n < 10 ^ width) :
    (digitsOf n).length ≤ width := by
  by_cases zero : n = 0
  · subst zero
    rw [digitsOf, if_pos (by decide)]
    exact positive
  · by_cases long : width < (digitsOf n).length
    · have least := pow_length_digitsOf_le n (by omega)
      have grows : 10 ^ width ≤ 10 ^ ((digitsOf n).length - 1) :=
        Nat.pow_le_pow_right (by decide) (by omega)
      omega
    · omega

/-- Only zero itself is written with a leading zero. -/
theorem head_digitsOf_ne_zero (n : Nat) (positive : 0 < n) (digit : Digit) (digits : List Digit)
    (equal : digitsOf n = digit :: digits) : digit ≠ Digit.zero := by
  intro zero
  subst zero
  have value := ofDigits_digitsOf n
  have least := pow_length_digitsOf_le n positive
  have bound := ofDigits_lt digits
  rw [equal, ofDigits_cons] at value
  rw [equal, List.length_cons, Nat.add_sub_cancel] at least
  simp only [Digit.val_zero, Nat.zero_mul, Nat.zero_add] at value
  omega

/-- The digits of a number with zeros in front up to a least width. -/
def paddedDigits (width n : Nat) : List Digit :=
  List.replicate (width - (digitsOf n).length) Digit.zero ++ digitsOf n

theorem paddedNumeral_eq (width n : Nat) :
    paddedNumeral width n = (paddedDigits width n).map Digit.char := by
  have zero : Digit.zero.char = '0' := by decide
  simp only [paddedNumeral, paddedDigits, numeral, List.map_append, List.map_replicate,
    List.length_map, zero]

@[simp] theorem ofDigits_paddedDigits (width n : Nat) : ofDigits (paddedDigits width n) = n := by
  simp [paddedDigits, ofDigits_append_eq]

theorem length_paddedDigits (width n : Nat) (positive : 0 < width) (small : n < 10 ^ width) :
    (paddedDigits width n).length = width := by
  have fits := length_digitsOf_le n width positive small
  simp only [paddedDigits, List.length_append, List.length_replicate]
  omega

theorem paddedDigits_ne_nil (width n : Nat) : paddedDigits width n ≠ [] := by
  simp [paddedDigits, digitsOf_ne_nil]

end JobDispatch.Text
