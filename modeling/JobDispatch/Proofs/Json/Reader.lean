import JobDispatch.Proofs.Json.Number
import JobDispatch.Json.Printer
import JobDispatch.Json.Reader
set_option autoImplicit false

namespace JobDispatch.Json

open Text

/-- Nothing that could go on with a number stands at the head of the symbols. -/
def EndsNumber (rest : Symbols) : Prop :=
  ∀ symbol tail, rest = symbol :: tail →
    symbol.bind Digit.ofChar? = none ∧ symbol ≠ some '.' ∧ symbol ≠ some 'e' ∧ symbol ≠ some 'E'

theorem endsNumber_nil : EndsNumber [] := by
  intro symbol tail equal
  cases equal

theorem endsNumber_cons {c : Char} (rest : Symbols)
    (ends : Digit.ofChar? c = none ∧ c ≠ '.' ∧ c ≠ 'e' ∧ c ≠ 'E') :
    EndsNumber (some c :: rest) := by
  intro symbol tail equal
  cases equal
  simpa using ends

theorem endsNumber_of_isGap {c : Char} (gap : isGap (some c) = true) :
    Digit.ofChar? c = none ∧ c ≠ '.' ∧ c ≠ 'e' ∧ c ≠ 'E' := by
  simp only [isGap, Bool.or_eq_true, beq_iff_eq] at gap
  rcases gap with ((space | tab) | feed) | back
  · subst space
    decide
  · subst tab
    decide
  · subst feed
    decide
  · subst back
    decide

theorem EndsNumber.stops {rest : Symbols} (ends : EndsNumber rest) :
    Stops (fun symbol : Option Char => symbol.bind Digit.ofChar?) rest := by
  intro symbol tail equal
  exact (ends symbol tail equal).1

/- Numbers. -/

theorem spanDigitSymbols_append (digits : List Digit) (rest : Symbols)
    (stops : Stops (fun symbol : Option Char => symbol.bind Digit.ofChar?) rest) :
    spanDigitSymbols (digits.map (some ∘ Digit.char) ++ rest) = (digits, rest) :=
  spanMap_map_append _ (some ∘ Digit.char) (fun digit => Digit.ofChar?_char digit) digits rest stops

theorem scanWhole_append (digits : List Digit) (rest : Symbols) (nonempty : digits ≠ [])
    (leading : ∀ digit others, digits = digit :: others → others ≠ [] → digit ≠ Digit.zero)
    (stops : Stops (fun symbol : Option Char => symbol.bind Digit.ofChar?) rest) :
    scanWhole (digits.map (some ∘ Digit.char) ++ rest) = some (digits, rest) := by
  rw [scanWhole, spanDigitSymbols_append digits rest stops]
  match digits with
  | [] => exact absurd rfl nonempty
  | [digit] => rfl
  | digit :: second :: others =>
    have nonzero := leading digit (second :: others) rfl (by simp)
    simp [nonzero]

/-- The text of a fraction, with its point. -/
def fractionText (digits : List Digit) : List Char :=
  if digits.isEmpty then [] else '.' :: digits.map Digit.char

/-- The text of an exponent, with its letter and its sign. -/
def exponentText : Option (Bool × List Digit) → List Char
  | none => []
  | some (negative, digits) => 'e' :: (if negative then '-' else '+') :: digits.map Digit.char

theorem scanFraction_append (digits : List Digit) (rest : Symbols)
    (point : ∀ tail, rest ≠ some '.' :: tail)
    (stops : Stops (fun symbol : Option Char => symbol.bind Digit.ofChar?) rest) :
    scanFraction ((fractionText digits).map some ++ rest) = some (digits, rest) := by
  cases digits with
  | nil =>
    change scanFraction rest = _
    unfold scanFraction
    split
    · rename_i tail
      exact absurd rfl (point tail)
    · rfl
  | cons digit digits =>
    have run := spanDigitSymbols_append (digit :: digits) rest stops
    simp only [List.map_cons, List.cons_append, Function.comp] at run
    simp [fractionText, scanFraction, run]

theorem scanExponent_append (exponent : Option (Bool × List Digit)) (rest : Symbols)
    (nonempty : ∀ negative digits, exponent = some (negative, digits) → digits ≠ [])
    (ends : EndsNumber rest) :
    scanExponent ((exponentText exponent).map some ++ rest) = some (exponent, rest) := by
  match exponent with
  | none =>
    change scanExponent rest = _
    unfold scanExponent
    split
    · rename_i c tail
      obtain ⟨_, _, small, large⟩ := ends (some c) tail rfl
      have neither : ¬ (c = 'e' ∨ c = 'E') := by
        rintro (equal | equal)
        · exact small (congrArg some equal)
        · exact large (congrArg some equal)
      rw [if_neg neither]
    · rfl
  | some (negative, []) => exact absurd rfl (nonempty negative [] rfl)
  | some (negative, digit :: digits) =>
    have run := spanDigitSymbols_append (digit :: digits) rest ends.stops
    simp only [List.map_cons, List.cons_append, Function.comp] at run
    cases negative <;> simp [exponentText, scanExponent, scanExponentDigits, run]

theorem scanUnsigned_append (number : Number) (rest : Symbols) (wellFormed : number.WellFormed)
    (ends : EndsNumber rest) :
    scanUnsigned number.negative (number.whole.map (some ∘ Digit.char)
      ++ ((fractionText number.fraction).map some
        ++ ((exponentText number.exponent).map some ++ rest))) = some (number, rest) := by
  have afterFraction : Stops (fun symbol : Option Char => symbol.bind Digit.ofChar?)
      ((exponentText number.exponent).map some ++ rest) := by
    match number.exponent with
    | none => exact ends.stops
    | some (negative, digits) => exact stops_cons (by decide)
  have point : ∀ tail, (exponentText number.exponent).map some ++ rest ≠ some '.' :: tail := by
    match number.exponent with
    | none =>
      intro tail equal
      exact (ends _ _ equal).2.1 rfl
    | some (negative, digits) => simp [exponentText]
  have afterWhole : Stops (fun symbol : Option Char => symbol.bind Digit.ofChar?)
      ((fractionText number.fraction).map some
        ++ ((exponentText number.exponent).map some ++ rest)) := by
    match number.fraction with
    | [] => exact afterFraction
    | digit :: digits => exact stops_cons (by decide)
  rw [scanUnsigned, scanWhole_append _ _ wellFormed.whole wellFormed.leading afterWhole]
  simp only [bind, Option.bind]
  rw [scanFraction_append _ _ point afterFraction]
  simp only
  rw [scanExponent_append _ _ wellFormed.exponent ends]

theorem text_eq (number : Number) :
    number.text = (if number.negative then ['-'] else [])
      ++ (number.whole.map Digit.char ++ (fractionText number.fraction
        ++ exponentText number.exponent)) := by
  simp only [Number.text, fractionText, List.append_assoc]
  rfl

theorem scanNumber_digit (digit : Digit) (rest : Symbols) :
    scanNumber (some digit.char :: rest) = scanUnsigned false (some digit.char :: rest) := by
  have minus : digit.char ≠ '-' := by
    revert digit
    decide
  unfold scanNumber
  split
  · simp_all
  · rfl

theorem scanNumber_text (number : Number) (rest : Symbols) (wellFormed : number.WellFormed)
    (ends : EndsNumber rest) : scanNumber (number.text.map some ++ rest) = some (number, rest) := by
  have unsigned := scanUnsigned_append number rest wellFormed ends
  rw [text_eq]
  simp only [List.map_append, List.append_assoc, List.map_map]
  by_cases negative : number.negative = true
  · rw [negative] at unsigned
    simpa [negative, scanNumber] using unsigned
  · rw [Bool.not_eq_true] at negative
    rw [negative] at unsigned
    match equal : number.whole with
    | [] => exact absurd equal wellFormed.whole
    | digit :: digits =>
      rw [equal] at unsigned
      simp only [negative, Bool.false_eq_true, if_false, List.map_nil, List.nil_append,
        List.map_cons, List.cons_append, Function.comp] at unsigned ⊢
      rw [scanNumber_digit]
      exact unsigned

/- Strings. -/

/-- The piece that a character is read as: most control characters are written as units. -/
def pieceOf (c : Char) : Piece :=
  if c = '\n' ∨ c = '\r' ∨ c = '\t' ∨ c = '\x08' ∨ c = '\x0c' then .symbol (some c)
  else if c.toNat < 0x20 then .unit c.toNat
  else .symbol (some c)

theorem scanPieces_plain (c : Char) (rest : Symbols) (quote : c ≠ '"') (back : c ≠ '\\')
    (printable : ¬ c.toNat < 0x20) :
    scanPieces (some c :: rest) =
      (scanPieces rest).map fun (pieces, rest) => (.symbol (some c) :: pieces, rest) := by
  rw [scanPieces.eq_def]
  split <;> simp_all
  rename_i heads
  obtain ⟨rfl, rfl⟩ := heads
  cases scanPieces rest <;> simp [printable]

theorem scanPieces_letter (letter c : Char) (rest : Symbols) (unit : letter ≠ 'u')
    (named : escaped? letter = some c) :
    scanPieces (some '\\' :: some letter :: rest) =
      (scanPieces rest).map fun (pieces, rest) => (.symbol (some c) :: pieces, rest) := by
  rw [scanPieces.eq_def]
  split <;> simp_all
  · rename_i heads
    obtain ⟨rfl, rfl⟩ := heads
    cases scanPieces rest <;> rfl
  · rename_i others heads
    exact absurd heads.symm (others letter rest)

theorem hexQuad?_char (high low : HexDigit) :
    hexQuad? (some '0') (some '0') (some high.char) (some low.char)
      = some (high.val * 16 + low.val) := by
  have zero : HexDigit.ofChar? '0' = some 0 := by decide
  simp [hexQuad?, zero]

theorem scanPieces_escape (c : Char) (rest : Symbols) :
    scanPieces ((escape c).map some ++ rest) =
      (scanPieces rest).map fun (pieces, rest) => (pieceOf c :: pieces, rest) := by
  unfold escape
  split
  · exact scanPieces_letter '"' '"' rest (by decide) rfl
  · exact scanPieces_letter '\\' '\\' rest (by decide) rfl
  · exact scanPieces_letter 'n' '\n' rest (by decide) rfl
  · exact scanPieces_letter 'r' '\r' rest (by decide) rfl
  · exact scanPieces_letter 't' '\t' rest (by decide) rfl
  · exact scanPieces_letter 'b' '\x08' rest (by decide) rfl
  · exact scanPieces_letter 'f' '\x0c' rest (by decide) rfl
  · rename_i quote back feed carriage tab backspace page
    have plain : ¬ (c = '\n' ∨ c = '\r' ∨ c = '\t' ∨ c = '\x08' ∨ c = '\x0c') := by
      rintro (equal | equal | equal | equal | equal)
      · exact feed equal
      · exact carriage equal
      · exact tab equal
      · exact backspace equal
      · exact page equal
    by_cases control : c.toNat < 0x20
    · have unit : pieceOf c = .unit c.toNat := by rw [pieceOf, if_neg plain, if_pos control]
      rw [dif_pos control, unit]
      simp only [List.map_cons, List.map_nil, List.cons_append, List.nil_append, scanPieces,
        hexQuad?_char, bind, Option.bind]
      rw [show c.toNat / 16 * 16 + c.toNat % 16 = c.toNat by omega]
      cases scanPieces rest <;> rfl
    · have symbol : pieceOf c = .symbol (some c) := by rw [pieceOf, if_neg plain, if_neg control]
      rw [dif_neg control, symbol]
      exact scanPieces_plain c rest quote back control

theorem scanPieces_flatMap (chars : List Char) (rest : Symbols) :
    scanPieces ((chars.flatMap escape).map some ++ some '"' :: rest) =
      some (chars.map pieceOf, rest) := by
  induction chars with
  | nil => simp [scanPieces]
  | cons c chars ih =>
    simp only [List.flatMap_cons, List.map_append, List.append_assoc]
    rw [scanPieces_escape, ih]
    rfl

/-- A unit below the surrogates is a character of its own. -/
theorem textOfPieces?_unit (unit : Nat) (pieces : List Piece) (low : unit < 0xD800) :
    textOfPieces? (.unit unit :: pieces) =
      (textOfPieces? pieces).map (Char.ofNat unit :: ·) := by
  have high : isHighSurrogate unit = false := by simp [isHighSurrogate]; omega
  have second : isLowSurrogate unit = false := by simp [isLowSurrogate]; omega
  match pieces with
  | [] => simp [textOfPieces?, high, second]
  | .unit next :: pieces => simp [textOfPieces?, high, second]
  | .symbol symbol :: pieces => simp [textOfPieces?, high, second]

theorem textOfPieces?_pieceOf (chars : List Char) :
    textOfPieces? (chars.map pieceOf) = some chars := by
  induction chars with
  | nil => rfl
  | cons c chars ih =>
    have symbol : textOfPieces? (.symbol (some c) :: chars.map pieceOf) = some (c :: chars) := by
      simp [textOfPieces?, ih]
    rw [List.map_cons, pieceOf]
    split
    · exact symbol
    · split
      · rename_i control
        rw [textOfPieces?_unit _ _ (by omega), ih, Char.ofNat_toNat]
        rfl
      · exact symbol

/-- A string in quotes is read as its content, whatever characters it holds. -/
theorem scanString_quote (content : String) (rest : Symbols) :
    scanString ((content.toList.flatMap escape).map some ++ some '"' :: rest) =
      some (some content, rest) := by
  simp [scanString, scanPieces_flatMap, textOfPieces?_pieceOf]

end JobDispatch.Json
