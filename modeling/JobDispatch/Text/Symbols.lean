set_option autoImplicit false

namespace JobDispatch.Text

/-- The symbols of a byte sequence; `none` stands for a byte that encodes nothing. -/
abbrev Symbols := List (Option Char)

/-- A continuation byte gives six bits. -/
def continuation? (byte : UInt8) : Option Nat :=
  if 0x80 ≤ byte.toNat ∧ byte.toNat < 0xC0 then some (byte.toNat - 0x80) else none

/-- The character of a code point that has one and needs at least `least`. -/
def charAtLeast? (least n : Nat) : Option Char :=
  if h : n.isValidChar then (if least ≤ n then some (Char.ofNatAux n h) else none) else none

/-- The character at the head of a byte sequence, and how many bytes encode it. -/
def decodeHead? : List UInt8 → Option (Char × Nat)
  | [] => none
  | a :: rest =>
    let lead := a.toNat
    if lead < 0x80 then (charAtLeast? 0 lead).map (·, 1)
    else if lead < 0xC0 then none
    else if lead < 0xE0 then do
      let b ← rest.head?.bind continuation?
      let c ← charAtLeast? 0x80 ((lead - 0xC0) * 0x40 + b)
      some (c, 2)
    else if lead < 0xF0 then do
      let b ← rest.head?.bind continuation?
      let c ← (rest.drop 1).head?.bind continuation?
      let d ← charAtLeast? 0x800 ((lead - 0xE0) * 0x1000 + b * 0x40 + c)
      some (d, 3)
    else if lead < 0xF8 then do
      let b ← rest.head?.bind continuation?
      let c ← (rest.drop 1).head?.bind continuation?
      let d ← (rest.drop 2).head?.bind continuation?
      let e ← charAtLeast? 0x10000 ((lead - 0xF0) * 0x40000 + b * 0x1000 + c * 0x40 + d)
      some (e, 4)
    else none

/-- The symbols of bytes that need not be well formed; `skip` bytes belong to the symbol before. -/
def decodeLoosely : Nat → List UInt8 → Symbols
  | _, [] => []
  | skip + 1, _ :: rest => decodeLoosely skip rest
  | 0, byte :: rest =>
    match decodeHead? (byte :: rest) with
    | some (c, size) => some c :: decodeLoosely (size - 1) rest
    | none => none :: decodeLoosely 0 rest

def symbols (text : String) : Symbols := text.toList.map some

def symbolsOfBytes (bytes : ByteArray) : Symbols :=
  match String.fromUTF8? bytes with
  | some text => symbols text
  | none => decodeLoosely 0 bytes.toList

theorem symbolsOfBytes_toByteArray (text : String) :
    symbolsOfBytes text.toByteArray = symbols text := by
  have h : String.fromUTF8? text.toByteArray = some text := by
    simp only [String.fromUTF8?, String.fromUTF8]
    simp [text.isValidUTF8]
  rw [symbolsOfBytes, h]

end JobDispatch.Text
