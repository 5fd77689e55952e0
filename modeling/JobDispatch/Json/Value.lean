import JobDispatch.Json.Number
set_option autoImplicit false

/- What a JSON text holds, as far as it can be read. Reading goes from left to right and never
fails as a whole: where a text stops being JSON, the value that stands there is `broken`, and
nothing follows it. -/
namespace JobDispatch.Json

/-- A value, or the beginning of one. Keys are values too, since anything may stand where a key
should; a string has no content when its escapes or bytes are no Unicode text. -/
inductive Value where
  | null
  | bool (flag : Bool)
  | number (literal : Number)
  | string (content : Option String)
  | array (items : List Value)
  | object (members : List (Value × Value))
  | broken
deriving Inhabited

namespace Value

def text (content : String) : Value := .string (some content)

def record (members : List (String × Value)) : Value :=
  .object (members.map fun (key, value) => (text key, value))

def nat (n : Nat) : Value := .number (Number.ofNat n)

/-- A finite number; the others have no literal and are written as `null`. -/
def float (x : Binary64) : Value := if x.isFinite then .number (Number.ofBinary64 x) else .null

def orNull {α : Type} (encode : α → Value) : Option α → Value
  | none => .null
  | some a => encode a

def isString : Value → Bool
  | .string _ => true
  | _ => false

mutual

/-- Reading went through the whole value; this is all that is asked of a value nobody looks at. -/
def isWhole : Value → Bool
  | .broken => false
  | .array items => areWhole items
  | .object members => areWholeMembers members
  | _ => true

def areWhole : List Value → Bool
  | [] => true
  | item :: items => isWhole item && areWhole items

def areWholeMembers : List (Value × Value) → Bool
  | [] => true
  | (key, value) :: members => isString key && isWhole value && areWholeMembers members

end

mutual

/-- Every string is Unicode text, every number finite, and nothing is nested deeper than `depth`
arrays and objects. -/
def isReadable : Nat → Value → Bool
  | _, .null => true
  | _, .bool _ => true
  | _, .number literal => literal.isReadable
  | _, .string content => content.isSome
  | 0, .array _ => false
  | 0, .object _ => false
  | depth + 1, .array items => areReadable depth items
  | depth + 1, .object members => areReadableMembers depth members
  | _, .broken => false

def areReadable (depth : Nat) : List Value → Bool
  | [] => true
  | item :: items => isReadable depth item && areReadable depth items

def areReadableMembers (depth : Nat) : List (Value × Value) → Bool
  | [] => true
  | (key, value) :: members =>
    isString key && isReadable depth key && isReadable depth value
      && areReadableMembers depth members

end

end Value

end JobDispatch.Json
