import JobDispatch.Proofs.Json.Reader
set_option autoImplicit false

/- A printed value is read back as the value it was, in either layout. The work that reading is
allowed grows with the text, so that it suffices for everything that is printed. -/
namespace JobDispatch.Json

open Text

namespace Value

mutual

/-- The value has a text: literals are in the form of the grammar, strings have a content, and keys
are strings. -/
def IsWritable : Value → Prop
  | .null => True
  | .bool _ => True
  | .number literal => literal.WellFormed
  | .string content => content.isSome = true
  | .array items => AreWritable items
  | .object members => AreWritableMembers members
  | .broken => False

def AreWritable : List Value → Prop
  | [] => True
  | item :: items => IsWritable item ∧ AreWritable items

def AreWritableMembers : List (Value × Value) → Prop
  | [] => True
  | (key, value) :: members =>
    (∃ name, key = text name) ∧ IsWritable value ∧ AreWritableMembers members

end

end Value

/-- A layout adds white space only. -/
structure Layout.IsBlank (layout : Layout) : Prop where
  gap : ∀ depth, ∀ c ∈ layout.gap depth, isGap (some c) = true
  colon : ∃ space, layout.colon = ':' :: space ∧ ∀ c ∈ space, isGap (some c) = true

theorem isBlank_compact : Layout.compact.IsBlank where
  gap := by simp [Layout.compact]
  colon := ⟨[], rfl, by simp⟩

theorem isBlank_indented : Layout.indented.IsBlank where
  gap := by
    intro depth c member
    simp only [Layout.indented, List.mem_cons, List.mem_replicate] at member
    rcases member with feed | ⟨_, space⟩
    · subst feed
      rfl
    · subst space
      rfl
  colon := ⟨[' '], rfl, by simp [isGap]⟩

theorem skipGaps_append (gap : List Char) (rest : Symbols)
    (blank : ∀ c ∈ gap, isGap (some c) = true) :
    skipGaps (gap.map some ++ rest) = skipGaps rest := by
  induction gap with
  | nil => rfl
  | cons c gap ih =>
    have first := blank c (by simp)
    have others := ih fun d member => blank d (by simp [member])
    simpa [skipGaps, first] using others

theorem skipGaps_cons {c : Char} (rest : Symbols) (solid : isGap (some c) = false) :
    skipGaps (some c :: rest) = some c :: rest := by
  simp [skipGaps, solid]

theorem endsNumber_append (gap : List Char) (rest : Symbols)
    (blank : ∀ c ∈ gap, isGap (some c) = true) (ends : EndsNumber rest) :
    EndsNumber (gap.map some ++ rest) := by
  cases gap with
  | nil => exact ends
  | cons c gap => exact endsNumber_cons _ (endsNumber_of_isGap (blank c (by simp)))

/-- White space in front of a value does not matter. -/
theorem readValue_congr (fuel : Nat) {source other : Symbols}
    (same : skipGaps source = skipGaps other) : readValue fuel source = readValue fuel other := by
  cases fuel with
  | zero => rfl
  | succ fuel => simp only [readValue, same]

/-- Anything but brackets and braces starts a scalar. -/
theorem readValue_scalar (fuel : Nat) (c : Char) (rest : Symbols) (solid : isGap (some c) = false)
    (bracket : c ≠ '[') (brace : c ≠ '\x7b') :
    readValue (fuel + 1) (some c :: rest) = readScalar (some c :: rest) := by
  rw [readValue, skipGaps_cons rest solid]
  split <;> simp_all

theorem readScalar_quote (content : String) (rest : Symbols) :
    readScalar ((quote content).map some ++ rest) = (.text content, some rest) := by
  have read := scanString_quote content rest
  have split : (quote content).map some ++ rest =
      some '"' :: ((content.toList.flatMap escape).map some ++ some '"' :: rest) := by
    simp [quote]
  rw [split]
  simp only [readScalar, read, Value.text]

theorem readValue_quote (fuel : Nat) (content : String) (rest : Symbols) :
    readValue (fuel + 1) ((quote content).map some ++ rest) = (.text content, some rest) := by
  have read := readScalar_quote content rest
  simp only [quote, List.map_cons, List.cons_append] at read ⊢
  rw [readValue_scalar fuel '"' _ (by decide) (by decide) (by decide), read]

/-- No other value and no white space starts with this character. -/
def StartsNumber (c : Char) : Prop :=
  isGap (some c) = false ∧ c ≠ '[' ∧ c ≠ ']' ∧ c ≠ '\x7b' ∧ c ≠ '\x7d' ∧ c ≠ 'n' ∧ c ≠ 't'
    ∧ c ≠ 'f' ∧ c ≠ '"'

theorem startsNumber_minus : StartsNumber '-' := by
  unfold StartsNumber
  decide

theorem startsNumber_digit (digit : Digit) : StartsNumber digit.char := by
  unfold StartsNumber
  revert digit
  decide

theorem head_number_text (number : Number) (wellFormed : number.WellFormed) :
    ∃ c rest, number.text = c :: rest ∧ StartsNumber c := by
  rw [text_eq]
  by_cases negative : number.negative = true
  · rw [if_pos negative]
    exact ⟨'-', _, rfl, startsNumber_minus⟩
  · rw [if_neg negative]
    match equal : number.whole with
    | [] => exact absurd equal wellFormed.whole
    | digit :: digits => exact ⟨digit.char, _, rfl, startsNumber_digit digit⟩

theorem readValue_number (fuel : Nat) (number : Number) (rest : Symbols)
    (wellFormed : number.WellFormed) (ends : EndsNumber rest) :
    readValue (fuel + 1) (number.text.map some ++ rest) = (.number number, some rest) := by
  have read := scanNumber_text number rest wellFormed ends
  obtain ⟨c, others, equal, solid, bracket, _, brace, _, notNull, notTrue, notFalse, notQuote⟩ :=
    head_number_text number wellFormed
  rw [equal, List.map_cons, List.cons_append] at read ⊢
  rw [readValue_scalar fuel c _ solid bracket brace]
  unfold readScalar
  split
  · simp_all
  · simp_all
  · simp_all
  · simp_all
  · rw [read]

/-- A printed value starts with a character of its own: no white space and no closing mark. -/
theorem head_print (layout : Layout) (depth : Nat) (value : Value) (writable : value.IsWritable) :
    ∃ c rest, Value.print layout depth value = c :: rest ∧ isGap (some c) = false ∧ c ≠ ']'
      ∧ c ≠ '\x7d' := by
  cases value with
  | null => exact ⟨'n', _, rfl, by decide⟩
  | bool flag => cases flag <;> exact ⟨_, _, rfl, by decide⟩
  | number literal =>
    obtain ⟨c, rest, equal, solid, _, bracket, _, brace, _⟩ := head_number_text literal writable
    exact ⟨c, rest, equal, solid, bracket, brace⟩
  | string content => exact ⟨'"', _, rfl, by decide⟩
  | array items => cases items <;> exact ⟨'[', _, rfl, by decide⟩
  | object members =>
    cases members with
    | nil => exact ⟨'\x7b', _, rfl, by decide⟩
    | cons member members => exact ⟨'\x7b', _, rfl, by decide⟩
  | broken => exact absurd writable id

theorem readItems_congr (fuel : Nat) {source other : Symbols}
    (same : skipGaps source = skipGaps other) : readItems fuel source = readItems fuel other := by
  cases fuel with
  | zero => rfl
  | succ fuel => simp only [readItems, readValue_congr fuel same]

theorem readMembers_congr (fuel : Nat) {source other : Symbols}
    (same : skipGaps source = skipGaps other) :
    readMembers fuel source = readMembers fuel other := by
  cases fuel with
  | zero => rfl
  | succ fuel => simp only [readMembers, readValue_congr fuel same]

/-- Behind an opening bracket an item starts unless the array is closed at once. -/
theorem readValue_bracket (fuel : Nat) (gap : List Char) (c : Char) (rest : Symbols)
    (spaced : ∀ d ∈ gap, isGap (some d) = true) (solid : isGap (some c) = false)
    (item : c ≠ ']') :
    readValue (fuel + 1) (some '[' :: (gap.map some ++ some c :: rest)) =
      (.array (readItems fuel (some c :: rest)).1, (readItems fuel (some c :: rest)).2) := by
  rw [readValue, skipGaps_cons _ (show isGap (some '[') = false by decide)]
  simp only [skipGaps_append gap _ spaced, skipGaps_cons rest solid]
  split
  · simp_all
  · rfl

/-- Behind an opening brace a member starts unless the object is closed at once. -/
theorem readValue_brace (fuel : Nat) (gap : List Char) (c : Char) (rest : Symbols)
    (spaced : ∀ d ∈ gap, isGap (some d) = true) (solid : isGap (some c) = false)
    (member : c ≠ '\x7d') :
    readValue (fuel + 1) (some '\x7b' :: (gap.map some ++ some c :: rest)) =
      (.object (readMembers fuel (some c :: rest)).1, (readMembers fuel (some c :: rest)).2) := by
  rw [readValue, skipGaps_cons _ (show isGap (some '\x7b') = false by decide)]
  simp only [skipGaps_append gap _ spaced, skipGaps_cons rest solid]
  split
  · simp_all
  · rfl

theorem readValue_name (layout : Layout) (depth fuel : Nat) (name : String) (rest : Symbols)
    (allowed : 0 < fuel) :
    readValue fuel ((Value.print layout depth (.text name)).map some ++ rest) =
      (.string (some name), some rest) := by
  obtain ⟨fuel, rfl⟩ : ∃ n, fuel = n + 1 := ⟨fuel - 1, by omega⟩
  rw [Value.text, Value.print]
  exact readValue_quote fuel name rest

section

variable (layout : Layout) (blank : layout.IsBlank)

include blank

mutual

/-- A printed value is read back, whatever follows it. -/
theorem readValue_print : ∀ (value : Value) (depth fuel : Nat) (rest : Symbols),
    value.IsWritable → EndsNumber rest → (Value.print layout depth value).length < fuel →
    readValue fuel ((Value.print layout depth value).map some ++ rest) = (value, some rest)
  | _, _, 0, _, _, _, short => absurd short (Nat.not_lt_zero _)
  | .null, depth, fuel + 1, rest, _, _, _ => by
    simp [Value.print, readValue, skipGaps, isGap, readScalar, scanWord]
  | .bool true, depth, fuel + 1, rest, _, _, _ => by
    simp [Value.print, readValue, skipGaps, isGap, readScalar, scanWord]
  | .bool false, depth, fuel + 1, rest, _, _, _ => by
    simp [Value.print, readValue, skipGaps, isGap, readScalar, scanWord]
  | .number literal, depth, fuel + 1, rest, writable, ends, _ => by
    rw [Value.print]
    exact readValue_number fuel literal rest writable ends
  | .string none, depth, fuel + 1, rest, writable, _, _ => by
    simp [Value.IsWritable] at writable
  | .string (some content), depth, fuel + 1, rest, _, _, _ => by
    rw [Value.print]
    exact readValue_quote fuel content rest
  | .array [], depth, fuel + 1, rest, _, _, _ => by
    simp [Value.print, readValue, skipGaps, isGap]
  | .array (item :: items), depth, fuel + 1, rest, writable, _, short => by
    obtain ⟨itemWritable, itemsWritable⟩ := writable
    obtain ⟨c, chars, head, solid, bracket, _⟩ := head_print layout (depth + 1) item itemWritable
    simp only [Value.print, List.cons_append, List.length_cons, List.length_append] at short
    have read := readItems_print items item (depth + 1) fuel (layout.gap depth) rest itemWritable
      itemsWritable (blank.gap depth) (by omega)
    simp only [Value.print, head, List.map_cons, List.cons_append, List.map_append, List.map_nil,
      List.append_assoc, List.nil_append] at read ⊢
    rw [readValue_bracket fuel _ c _ (blank.gap _) solid bracket, read]
  | .object [], depth, fuel + 1, rest, _, _, _ => by
    simp [Value.print, readValue, skipGaps, isGap]
  | .object ((key, value) :: members), depth, fuel + 1, rest, writable, _, short => by
    obtain ⟨⟨name, named⟩, valueWritable, membersWritable⟩ := writable
    subst named
    obtain ⟨c, chars, head, solid, _, brace⟩ := head_print layout (depth + 1) (.text name) rfl
    simp only [Value.print, List.cons_append, List.length_cons, List.length_append] at short
    have read := readMembers_print members name value (depth + 1) fuel (layout.gap depth) rest
      valueWritable membersWritable (blank.gap depth) (by omega)
    simp only [Value.print, head, List.map_cons, List.cons_append, List.map_append, List.map_nil,
      List.append_assoc, List.nil_append] at read ⊢
    rw [readValue_brace fuel _ c _ (blank.gap _) solid brace, read]
  | .broken, _, _ + 1, _, writable, _, _ => absurd writable id

/-- The items of a printed array are read back up to its closing bracket. -/
theorem readItems_print : ∀ (items : List Value) (item : Value) (depth fuel : Nat)
    (closing : List Char) (rest : Symbols), item.IsWritable → Value.AreWritable items →
    (∀ c ∈ closing, isGap (some c) = true) →
    (Value.print layout depth item).length + (Value.printItems layout depth items).length + 1
      < fuel →
    readItems fuel ((Value.print layout depth item).map some
      ++ ((Value.printItems layout depth items).map some
        ++ (closing.map some ++ some ']' :: rest))) = (item :: items, some rest)
  | _, _, _, 0, _, _, _, _, _, short => absurd short (Nat.not_lt_zero _)
  | [], item, depth, fuel + 1, closing, rest, writable, _, closed, short => by
    have bracket : EndsNumber (some ']' :: rest) := endsNumber_cons rest (by decide)
    have read := readValue_print item depth fuel (closing.map some ++ some ']' :: rest) writable
      (endsNumber_append closing _ closed bracket) (by omega)
    simp only [Value.printItems, List.map_nil, List.nil_append, readItems, read,
      skipGaps_append closing _ closed,
      skipGaps_cons rest (show isGap (some ']') = false by decide)]
  | next :: items, item, depth, fuel + 1, closing, rest, writable, others, closed, short => by
    obtain ⟨nextWritable, itemsWritable⟩ := others
    simp only [Value.printItems, List.cons_append, List.length_cons, List.length_append] at short
    obtain ⟨c, chars, head, _⟩ := head_print layout depth item writable
    have nonempty := congrArg List.length head
    rw [List.length_cons] at nonempty
    have read := readValue_print item depth fuel
      (some ',' :: ((layout.gap depth).map some ++ ((Value.print layout depth next).map some
        ++ ((Value.printItems layout depth items).map some
          ++ (closing.map some ++ some ']' :: rest))))) writable
      (endsNumber_cons _ (by decide)) (by omega)
    have later := readItems_print items next depth fuel closing rest nextWritable itemsWritable
      closed (by omega)
    rw [← readItems_congr fuel (skipGaps_append (layout.gap depth) _ (blank.gap depth))] at later
    simp only [Value.printItems, List.cons_append, List.map_cons, List.map_append,
      List.append_assoc, readItems, read,
      skipGaps_cons _ (show isGap (some ',') = false by decide), later]

/-- The members of a printed object are read back up to its closing brace. -/
theorem readMembers_print : ∀ (members : List (Value × Value)) (name : String) (value : Value)
    (depth fuel : Nat) (closing : List Char) (rest : Symbols), value.IsWritable →
    Value.AreWritableMembers members → (∀ c ∈ closing, isGap (some c) = true) →
    (Value.print layout depth (.text name)).length + (Value.print layout depth value).length
      + (Value.printMembers layout depth members).length + 1 < fuel →
    readMembers fuel ((Value.print layout depth (.text name)).map some
      ++ (layout.colon.map some ++ ((Value.print layout depth value).map some
        ++ ((Value.printMembers layout depth members).map some
          ++ (closing.map some ++ some '\x7d' :: rest))))) =
      ((.text name, value) :: members, some rest)
  | _, _, _, _, 0, _, _, _, _, _, short => absurd short (Nat.not_lt_zero _)
  | [], name, value, depth, fuel + 1, closing, rest, writable, _, closed, short => by
    obtain ⟨space, colon, spaced⟩ := blank.colon
    have brace : EndsNumber (some '\x7d' :: rest) := endsNumber_cons rest (by decide)
    have read := readValue_print value depth fuel (closing.map some ++ some '\x7d' :: rest)
      writable (endsNumber_append closing _ closed brace) (by omega)
    rw [← readValue_congr fuel (skipGaps_append space _ spaced)] at read
    rw [readMembers, readValue_name layout depth fuel name _ (by omega)]
    simp only [Value.printMembers, List.map_nil, List.nil_append, colon, List.map_cons,
      List.cons_append, read, skipGaps_cons _ (show isGap (some ':') = false by decide),
      skipGaps_append closing _ closed,
      skipGaps_cons rest (show isGap (some '\x7d') = false by decide)]
    rfl
  | (key, next) :: members, name, value, depth, fuel + 1, closing, rest, writable, others, closed,
      short => by
    obtain ⟨⟨nextName, named⟩, nextWritable, membersWritable⟩ := others
    subst named
    obtain ⟨space, colon, spaced⟩ := blank.colon
    obtain ⟨c, chars, head, _⟩ := head_print layout depth value writable
    have nonempty := congrArg List.length head
    simp only [Value.printMembers, List.cons_append, List.length_cons, List.length_append]
      at short nonempty
    have read := readValue_print value depth fuel
      (some ',' :: ((layout.gap depth).map some ++ ((Value.print layout depth (.text nextName)).map
        some ++ (layout.colon.map some ++ ((Value.print layout depth next).map some
          ++ ((Value.printMembers layout depth members).map some
            ++ (closing.map some ++ some '\x7d' :: rest))))))) writable
      (endsNumber_cons _ (by decide)) (by omega)
    have later := readMembers_print members nextName next depth fuel closing rest nextWritable
      membersWritable closed (by omega)
    rw [← readValue_congr fuel (skipGaps_append space _ spaced)] at read
    rw [← readMembers_congr fuel (skipGaps_append (layout.gap depth) _ (blank.gap depth))] at later
    rw [readMembers, readValue_name layout depth fuel name _ (by omega)]
    simp only [colon, List.map_cons, List.cons_append] at read later
    simp only [Value.printMembers, List.map_cons, List.map_append, List.cons_append,
      List.append_assoc, colon, read, later,
      skipGaps_cons _ (show isGap (some ':') = false by decide),
      skipGaps_cons _ (show isGap (some ',') = false by decide)]
    rfl

end

/-- A printed value is a document that ends clean, also with white space behind it. -/
theorem read_print_append (value : Value) (writable : value.IsWritable) (trail : List Char)
    (spaced : ∀ c ∈ trail, isGap (some c) = true) :
    Document.read ((Value.print layout 0 value ++ trail).map some) = ⟨value, true⟩ := by
  have ends : EndsNumber (trail.map some) := by
    simpa using endsNumber_append trail [] spaced endsNumber_nil
  have spent : skipGaps (trail.map some) = [] := by
    have skipped := skipGaps_append trail [] spaced
    rw [List.append_nil] at skipped
    exact skipped
  have read := readValue_print layout blank value 0
    (((Value.print layout 0 value ++ trail).map some).length + 1) (trail.map some) writable ends
    (by rw [List.length_map, List.length_append]; omega)
  rw [← List.map_append] at read
  rw [Document.read, read]
  simp only [spent, List.isEmpty_nil]

end

end JobDispatch.Json
