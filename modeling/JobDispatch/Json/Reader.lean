import JobDispatch.Text.Symbols
import JobDispatch.Uuid
import JobDispatch.Json.Value
set_option autoImplicit false

/- Reading a JSON text from left to right. A reader gives what it found and the symbols that follow
it, or no symbols when the text stopped being JSON there. -/
namespace JobDispatch.Json

open Text

/-- Space, tab, line feed and carriage return. -/
def isGap : Option Char → Bool
  | some c => c == ' ' || c == '\t' || c == '\n' || c == '\r'
  | none => false

/-- The symbols after leading white space. -/
def skipGaps (source : Symbols) : Symbols := source.dropWhile isGap

def hexQuad? (a b c d : Option Char) : Option Nat := do
  let a ← a.bind HexDigit.ofChar?
  let b ← b.bind HexDigit.ofChar?
  let c ← c.bind HexDigit.ofChar?
  let d ← d.bind HexDigit.ofChar?
  some (a.val * 4096 + b.val * 256 + c.val * 16 + d.val)

/-- The character of a one-letter escape. -/
def escaped? : Char → Option Char
  | '"' => some '"'
  | '\\' => some '\\'
  | '/' => some '/'
  | 'b' => some '\x08'
  | 'f' => some '\x0c'
  | 'n' => some '\n'
  | 'r' => some '\r'
  | 't' => some '\t'
  | _ => none

/-- The first half of a pair that encodes one character. -/
def isHighSurrogate (n : Nat) : Bool := decide (0xD800 ≤ n ∧ n < 0xDC00)

/-- The second half of a pair that encodes one character. -/
def isLowSurrogate (n : Nat) : Bool := decide (0xDC00 ≤ n ∧ n < 0xE000)

/-- One piece of a string's content: a symbol as it stands, or the unit that `\u` names. -/
inductive Piece where
  | symbol (symbol : Option Char)
  | unit (unit : Nat)
deriving DecidableEq, Repr

/-- The pieces of a string up to its closing quote; `none` for a text that stops being JSON. -/
def scanPieces : Symbols → Option (List Piece × Symbols)
  | [] => none
  | some '"' :: rest => some ([], rest)
  | some '\\' :: some 'u' :: a :: b :: c :: d :: rest => do
    let unit ← hexQuad? a b c d
    let (pieces, rest) ← scanPieces rest
    some (.unit unit :: pieces, rest)
  | some '\\' :: some c :: rest => do
    let c ← escaped? c
    let (pieces, rest) ← scanPieces rest
    some (.symbol (some c) :: pieces, rest)
  | some '\\' :: _ => none
  | symbol :: rest => do
    if symbol.any (fun c => decide (c.toNat < 0x20)) then none
    let (pieces, rest) ← scanPieces rest
    some (.symbol symbol :: pieces, rest)

/-- The text of pieces: two units that form a pair name one character, and a half of a pair that
stands alone is no text. -/
def textOfPieces? : List Piece → Option (List Char)
  | [] => some []
  | .symbol none :: _ => none
  | .symbol (some c) :: pieces => (textOfPieces? pieces).map (c :: ·)
  | .unit first :: .unit second :: pieces =>
    if isHighSurrogate first then
      if isLowSurrogate second then
        (textOfPieces? pieces).map
          (Char.ofNat (0x10000 + (first - 0xD800) * 0x400 + (second - 0xDC00)) :: ·)
      else none
    else if isLowSurrogate first then none
    else (textOfPieces? (.unit second :: pieces)).map (Char.ofNat first :: ·)
  | .unit unit :: pieces =>
    if isHighSurrogate unit || isLowSurrogate unit then none
    else (textOfPieces? pieces).map (Char.ofNat unit :: ·)

/-- A string after its opening quote: its content, if that is Unicode text. -/
def scanString (source : Symbols) : Option (Option String × Symbols) :=
  (scanPieces source).map fun (pieces, rest) =>
    ((textOfPieces? pieces).map String.ofList, rest)

def spanDigitSymbols (source : Symbols) : List Digit × Symbols :=
  spanMap (fun symbol => symbol.bind Digit.ofChar?) source

/-- The digits after a point, if there is one. -/
def scanFraction : Symbols → Option (List Digit × Symbols)
  | some '.' :: rest =>
    match spanDigitSymbols rest with
    | ([], _) => none
    | found => some found
  | rest => some ([], rest)

/-- The digits of an exponent after its optional sign. -/
def scanExponentDigits (negative : Bool) (source : Symbols) :
    Option (Option (Bool × List Digit) × Symbols) :=
  match spanDigitSymbols source with
  | ([], _) => none
  | (digits, rest) => some (some (negative, digits), rest)

/-- The exponent, if there is one. -/
def scanExponent : Symbols → Option (Option (Bool × List Digit) × Symbols)
  | some c :: rest =>
    if c = 'e' ∨ c = 'E' then
      match rest with
      | some '+' :: rest => scanExponentDigits false rest
      | some '-' :: rest => scanExponentDigits true rest
      | rest => scanExponentDigits false rest
    else some (none, some c :: rest)
  | source => some (none, source)

/-- The digits before the point: a zero alone, or digits that do not start with zero. -/
def scanWhole (source : Symbols) : Option (List Digit × Symbols) :=
  match spanDigitSymbols source with
  | ([], _) => none
  | ([digit], rest) => some ([digit], rest)
  | (first :: digits, rest) => if first = Digit.zero then none else some (first :: digits, rest)

/-- A number after its optional sign. -/
def scanUnsigned (negative : Bool) (source : Symbols) : Option (Number × Symbols) := do
  let (whole, source) ← scanWhole source
  let (fraction, source) ← scanFraction source
  let (exponent, source) ← scanExponent source
  some (⟨negative, whole, fraction, exponent⟩, source)

def scanNumber : Symbols → Option (Number × Symbols)
  | some '-' :: rest => scanUnsigned true rest
  | source => scanUnsigned false source

/-- The rest after a word, if the symbols start with it. -/
def scanWord : List Char → Symbols → Option Symbols
  | [], source => some source
  | letter :: letters, some c :: rest => if c = letter then scanWord letters rest else none
  | _ :: _, _ => none

/-- A value that needs no other value: a word, a string or a number. -/
def readScalar (source : Symbols) : Value × Option Symbols :=
  match source with
  | some 'n' :: rest =>
    match scanWord ['u', 'l', 'l'] rest with
    | some rest => (.null, some rest)
    | none => (.broken, none)
  | some 't' :: rest =>
    match scanWord ['r', 'u', 'e'] rest with
    | some rest => (.bool true, some rest)
    | none => (.broken, none)
  | some 'f' :: rest =>
    match scanWord ['a', 'l', 's', 'e'] rest with
    | some rest => (.bool false, some rest)
    | none => (.broken, none)
  | some '"' :: rest =>
    match scanString rest with
    | some (content, rest) => (.string content, some rest)
    | none => (.broken, none)
  | source =>
    match scanNumber source with
    | some (literal, rest) => (.number literal, some rest)
    | none => (.broken, none)

mutual

/-- A value. The first argument bounds the work and never runs out when it exceeds the number of
symbols, since each call leaves fewer of them. -/
def readValue : Nat → Symbols → Value × Option Symbols
  | 0, _ => (.broken, none)
  | fuel + 1, source =>
    match skipGaps source with
    | some '[' :: rest =>
      match skipGaps rest with
      | some ']' :: rest => (.array [], some rest)
      | rest => let (items, rest) := readItems fuel rest; (.array items, rest)
    | some '\x7b' :: rest =>
      match skipGaps rest with
      | some '\x7d' :: rest => (.object [], some rest)
      | rest => let (members, rest) := readMembers fuel rest; (.object members, rest)
    | source => readScalar source

/-- The items of an array from one item on, and what follows the closing bracket. -/
def readItems : Nat → Symbols → List Value × Option Symbols
  | 0, _ => ([.broken], none)
  | fuel + 1, source =>
    match readValue fuel source with
    | (item, none) => ([item], none)
    | (item, some rest) =>
      match skipGaps rest with
      | some ',' :: rest => let (items, rest) := readItems fuel rest; (item :: items, rest)
      | some ']' :: rest => ([item], some rest)
      | _ => ([item, .broken], none)

/-- The members of an object from one key on, and what follows the closing brace. -/
def readMembers : Nat → Symbols → List (Value × Value) × Option Symbols
  | 0, _ => ([(.broken, .broken)], none)
  | fuel + 1, source =>
    match readValue fuel source with
    | (.string content, some rest) =>
      match skipGaps rest with
      | some ':' :: rest =>
        match readValue fuel rest with
        | (value, none) => ([(.string content, value)], none)
        | (value, some rest) =>
          match skipGaps rest with
          | some ',' :: rest =>
            let (members, rest) := readMembers fuel rest
            ((.string content, value) :: members, rest)
          | some '\x7d' :: rest => ([(.string content, value)], some rest)
          | _ => ([(.string content, value), (.broken, .broken)], none)
      | _ => ([(.string content, .broken)], none)
    | (key, _) => ([(key, .broken)], none)

end

/-- A text that should hold one value: the value, and whether nothing but white space follows. -/
structure Document where
  value : Value
  endsClean : Bool

def Document.read (source : Symbols) : Document :=
  match readValue (source.length + 1) source with
  | (value, some rest) => ⟨value, (skipGaps rest).isEmpty⟩
  | (value, none) => ⟨value, false⟩

end JobDispatch.Json
