import JobDispatch.Time.Timestamp
import JobDispatch.Json.Reader
set_option autoImplicit false

namespace JobDispatch.Json

inductive Fault where
  | malformed
  | mismatch
deriving DecidableEq, Repr

abbrev Decoder (α : Type) := Value → Except Fault α

/-- The fault when a value of another kind is expected. Words, numbers and strings are read before
their kind is looked at, arrays and objects are not. -/
def Value.fault : Value → Fault
  | .broken => .malformed
  | .number literal => if literal.isReadable then .mismatch else .malformed
  | .string none => .malformed
  | _ => .mismatch

namespace Decode

def text : Decoder String
  | .string (some content) => .ok content
  | value => .error value.fault

/-- A string that a type reads its own way. -/
def parsed {α : Type} (parse : String → Option α) : Decoder α := fun value => do
  match parse (← text value) with
  | some a => .ok a
  | none => .error .mismatch

def uuid : Decoder Uuid := parsed Uuid.ofText?

def instant : Decoder Time.Instant := parsed Time.Instant.ofText?

/-- Any number that has a finite neighbour in the 64-bit format. -/
def float : Decoder Binary64
  | .number literal =>
    if literal.isReadable then .ok literal.toBinary64 else .error .malformed
  | value => .error value.fault

/-- A natural number below a bound, written without sign, point and exponent. -/
def natBelow (bound : Nat) : Decoder Nat
  | .number literal =>
    if literal.isReadable then
      match literal.toNat? with
      | some n => if n < bound then .ok n else .error .mismatch
      | none => .error .mismatch
    else .error .malformed
  | value => .error value.fault

/-- A natural number of 32 bits. -/
def word32 : Decoder UInt32 := fun value => do
  return UInt32.ofNat (← natBelow UInt32.size value)

/-- How many there are of something; 64 bits are enough. -/
def count : Decoder Nat := natBelow UInt64.size

/-- The value, or nothing for `null`. -/
def nullable {α : Type} (decode : Decoder α) : Decoder (Option α)
  | .null => .ok none
  | value => (decode value).map some

def named {α : Type} (cases : List (String × α)) (name : String) : Except Fault α :=
  match cases.lookup name with
  | some a => .ok a
  | none => .error .mismatch

/-- One of several names, or an object that holds nothing but the name with `null`. A key that is
no string makes the object malformed. -/
def choice {α : Type} (cases : List (String × α)) : Decoder α
  | .string (some name) => named cases name
  | .object ((.string (some name), value) :: members) => do
    let a ← named cases name
    match value with
    | .null => if members.isEmpty then .ok a else .error .malformed
    | value => .error value.fault
  | _ => .error .malformed

/-- The members of an object whose keys a type reads its own way, in order. -/
def members {κ α : Type} (key? : String → Option κ) (decode : Decoder α) :
    Decoder (List (κ × α))
  | .object members => members.mapM fun (key, value) => do
      match key with
      | .string (some name) =>
        match key? name with
        | some k => .ok (k, ← decode value)
        | none => .error .mismatch
      | _ => .error .malformed
  | value => .error value.fault

end Decode

/-- A named field and the test that its value must pass. -/
structure FieldRule where
  name : String
  check : Decoder Unit

/-- The fields found in an object, or in an array that lists them by position. -/
structure Fields where
  members : List (String × Value)
  positional : Bool

/-- How a record is decoded: its fields in order, and how it is built from them. -/
structure RecordDecoder (α : Type) where
  rules : List FieldRule
  build : Fields → Except Fault α

namespace RecordDecoder

instance : Applicative RecordDecoder where
  pure a := ⟨[], fun _ => .ok a⟩
  seq f x := ⟨f.rules ++ (x ()).rules, fun fields => do
    let g ← f.build fields
    let a ← (x ()).build fields
    return g a⟩

/-- A field that may be missing, then decided by `absent`. -/
def field {α : Type} (name : String) (decode : Decoder α) (absent : Bool → Except Fault α) :
    RecordDecoder α :=
  ⟨[⟨name, fun value => (decode value).map fun _ => ()⟩], fun fields =>
    match fields.members.lookup name with
    | some value => decode value
    | none => absent fields.positional⟩

def required {α : Type} (name : String) (decode : Decoder α) : RecordDecoder α :=
  field name decode fun _ => .error .mismatch

/-- A field that may be `null`, or missing from an object. -/
def optional {α : Type} (name : String) (decode : Decoder α) : RecordDecoder (Option α) :=
  field name (Decode.nullable decode) fun positional =>
    if positional then .error .mismatch else .ok none

/-- A field with a value to stand in when it is missing. -/
def defaulted {α : Type} (name : String) (decode : Decoder α) (default : α) : RecordDecoder α :=
  field name decode fun _ => .ok default

/-- The known fields of an object in order. A field given twice is a mismatch, an unknown one must
only be JSON. -/
def gather (rules : List FieldRule) : List String → List (Value × Value) →
    Except Fault (List (String × Value))
  | _, [] => .ok []
  | seen, (key, value) :: members =>
    match key with
    | .string (some name) =>
      match rules.find? fun rule => rule.name == name with
      | some rule => do
        if seen.contains name then .error .mismatch
        rule.check value
        return (name, value) :: (← gather rules (name :: seen) members)
      | none => if value.isWhole then gather rules seen members else .error .malformed
    | _ => .error .malformed

/-- The fields of an array by position. -/
def align : List FieldRule → List Value → Except Fault (List (String × Value))
  | _, [] => .ok []
  | [], _ :: _ => .error .malformed
  | rule :: rules, item :: items => do
    rule.check item
    return (rule.name, item) :: (← align rules items)

/-- A record written as an object, or as an array of all its fields in order. -/
def decode {α : Type} (record : RecordDecoder α) : Decoder α
  | .object members => do record.build ⟨← gather record.rules [] members, false⟩
  | .array items => do record.build ⟨← align record.rules items, true⟩
  | value => .error value.fault

def isNamed (name : String) : Value → Bool
  | .string (some content) => content == name
  | _ => false

/-- One of several records, told apart by the name in a tag. The tag may stand anywhere in an
object and comes first in an array. All of the value is read before the tag is looked at, which
bounds how deeply it may be nested. -/
def tagged {α : Type} (tag : String) (cases : List (String × RecordDecoder α)) : Decoder α :=
  fun value =>
    if value.isReadable 127 then
      match value with
      | .object members =>
        match members.filter fun (key, _) => isNamed tag key with
        | [(_, name)] => do
          let record ← Decode.named cases (← Decode.text name)
          record.decode (.object (members.filter fun (key, _) => !isNamed tag key))
        | _ => .error .mismatch
      | .array (name :: items) => do
        let record ← Decode.named cases (← Decode.text name)
        record.decode (.array items)
      | value => .error value.fault
    else .error .malformed

end RecordDecoder

/-- Decodes a text that holds one value and nothing after it. -/
def decodeSymbols {α : Type} (decode : Decoder α) (source : Text.Symbols) : Except Fault α := do
  let document := Document.read source
  let a ← decode document.value
  if document.endsClean then .ok a else .error .malformed

end JobDispatch.Json
