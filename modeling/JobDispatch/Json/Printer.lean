import JobDispatch.Uuid
import JobDispatch.Json.Value
set_option autoImplicit false

namespace JobDispatch.Json

/-- What stands between the parts of arrays and objects. -/
structure Layout where
  gap : Nat → List Char
  colon : List Char

namespace Layout

/-- No white space at all. -/
def compact : Layout := ⟨fun _ => [], [':']⟩

/-- Each part on a line of its own, two spaces deeper than what holds it. -/
def indented : Layout := ⟨fun depth => '\n' :: List.replicate (2 * depth) ' ', [':', ' ']⟩

end Layout

/-- A character inside a string: quotes, backslashes and control characters are escaped. -/
def escape (c : Char) : List Char :=
  match c with
  | '"' => ['\\', '"']
  | '\\' => ['\\', '\\']
  | '\n' => ['\\', 'n']
  | '\r' => ['\\', 'r']
  | '\t' => ['\\', 't']
  | '\x08' => ['\\', 'b']
  | '\x0c' => ['\\', 'f']
  | c =>
    if h : c.toNat < 0x20 then
      ['\\', 'u', '0', '0', HexDigit.char ⟨c.toNat / 16, by omega⟩,
        HexDigit.char ⟨c.toNat % 16, by omega⟩]
    else [c]

def quote (content : String) : List Char := '"' :: content.toList.flatMap escape ++ ['"']

namespace Value

mutual

/-- The text of a value that stands at a given depth. -/
def print (layout : Layout) (depth : Nat) : Value → List Char
  | .null => "null".toList
  | .bool true => "true".toList
  | .bool false => "false".toList
  | .number literal => literal.text
  | .string content => quote (content.getD "")
  | .array [] => ['[', ']']
  | .array (item :: items) =>
    '[' :: layout.gap (depth + 1) ++ print layout (depth + 1) item
      ++ printItems layout (depth + 1) items ++ layout.gap depth ++ [']']
  | .object [] => ['\x7b', '\x7d']
  | .object ((key, value) :: members) =>
    '\x7b' :: layout.gap (depth + 1) ++ print layout (depth + 1) key ++ layout.colon
      ++ print layout (depth + 1) value ++ printMembers layout (depth + 1) members
      ++ layout.gap depth ++ ['\x7d']
  | .broken => []

def printItems (layout : Layout) (depth : Nat) : List Value → List Char
  | [] => []
  | item :: items =>
    ',' :: layout.gap depth ++ print layout depth item ++ printItems layout depth items

def printMembers (layout : Layout) (depth : Nat) : List (Value × Value) → List Char
  | [] => []
  | (key, value) :: members =>
    ',' :: layout.gap depth ++ print layout depth key ++ layout.colon
      ++ print layout depth value ++ printMembers layout depth members

end

def compactText (value : Value) : String := String.ofList (print .compact 0 value)

def indentedText (value : Value) : String := String.ofList (print .indented 0 value)

end Value

end JobDispatch.Json
