set_option autoImplicit false

namespace JobDispatch.Http

/-- The characters of the names in a media type. -/
def isTokenChar (c : Char) : Bool :=
  c.isAlphanum || "!#$%&'*+-.^_\x60|~".toList.contains c

/-- What may stand between quotes, a quote at the end apart. -/
def isQuotedChar (c : Char) : Bool := decide (0x20 ≤ c.toNat ∧ c.toNat < 0x7F)

/-- A media type in lower case. -/
structure MediaType where
  kind : List Char
  subtype : List Char
  suffix : Option (List Char)
deriving DecidableEq, Repr

/-- The text after a closing quote: nothing, or spaces and a semicolon with what follows it. -/
def afterQuote : List Char → Option (List Char)
  | [] => some []
  | ';' :: rest => some rest
  | ' ' :: rest => afterQuote rest
  | _ => none

/-- The text after a quoted value of at least one character. A quote at once after the opening one
belongs to the value. -/
def afterQuoted (text : List Char) : Option (List Char) :=
  match text with
  | [] => none
  | first :: rest =>
    if isQuotedChar first then
      match rest.dropWhile fun c => c != '"' && isQuotedChar c with
      | '"' :: rest => afterQuote rest
      | _ => none
    else none

/-- The text after a value without quotes, which may be empty only at the end. -/
def afterPlain (text : List Char) : Option (List Char) :=
  match text.takeWhile isTokenChar, text.dropWhile isTokenChar with
  | _, [] => some []
  | _ :: _, ';' :: rest => some rest
  | _, _ => none

/-- The text after the next parameter: spaces, a name, an equals sign and a value. -/
def afterParameter (text : List Char) : Option (List Char) :=
  let text := text.dropWhile (· == ' ')
  match text.takeWhile isTokenChar, text.dropWhile isTokenChar with
  | [], [] => some []
  | _ :: _, '=' :: '"' :: rest => afterQuoted rest
  | _ :: _, '=' :: rest => afterPlain rest
  | _, _ => none

/-- The text is a list of well-formed parameters. The first argument exceeds their number. -/
def areParameters : Nat → List Char → Bool
  | _, [] => true
  | 0, _ => false
  | limit + 1, text =>
    match afterParameter text with
    | some rest => areParameters limit rest
    | none => false

/-- The parts of a text before and after its last plus sign, unless that comes first. -/
def splitSuffix (text : List Char) : List Char × Option (List Char) :=
  let suffix := (text.reverse.takeWhile (· != '+')).reverse
  let size := text.length - suffix.length
  if 1 < size then (text.take (size - 1), some suffix) else (text, none)

namespace MediaType

/-- Reads a media type; the case of letters does not count. -/
def ofText? (text : String) : Option MediaType :=
  let chars := text.toList.map Char.toLower
  match chars.takeWhile isTokenChar, chars.dropWhile isTokenChar with
  | first :: kind, '/' :: rest =>
    let parts := splitSuffix (rest.takeWhile isTokenChar)
    let wellFormed := match rest.dropWhile isTokenChar with
      | [] => true
      | ';' :: parameters => !parts.1.isEmpty && areParameters text.length parameters
      | _ => false
    if wellFormed then some ⟨first :: kind, parts.1, parts.2⟩ else none
  | _, _ => none

/-- The type names JSON, as its subtype or as its suffix. -/
def isJson (type : MediaType) : Bool :=
  type.kind == "application".toList &&
    (type.subtype == "json".toList || type.suffix == some "json".toList)

end MediaType

end JobDispatch.Http
