import JobDispatch.Text.Digit
import JobDispatch.Uuid
set_option autoImplicit false

namespace JobDispatch.Network

open Text

/-- An address of version 4, or one of version 6 as eight groups of sixteen bits. -/
inductive Address where
  | v4 (first second third fourth : UInt8)
  | v6 (groups : List UInt16) (eight : groups.length = 8)
deriving DecidableEq, Repr

/-- The digits of a group, without leading zeros. -/
def hexDigitsOf (n : Nat) : List HexDigit :=
  if n < 16 then [⟨n % 16, Nat.mod_lt n (by decide)⟩]
  else hexDigitsOf (n / 16) ++ [⟨n % 16, Nat.mod_lt n (by decide)⟩]
termination_by n
decreasing_by omega

/-- Groups with colons between them. -/
def groupsText (groups : List UInt16) : List Char :=
  [':'].intercalate (groups.map fun group => (hexDigitsOf group.toNat).map HexDigit.char)

/-- Four numbers with points between them. -/
def v4Text (first second third fourth : UInt8) : List Char :=
  ['.'].intercalate ([first, second, third, fourth].map fun byte => numeral byte.toNat)

/-- The length of the run of zeros at the head. -/
def zeroRun (groups : List UInt16) : Nat := (groups.takeWhile (· == 0)).length

/-- Start and length of the longest run of zeros, the first one of several. -/
def longestZeroRun : List UInt16 → Nat × Nat
  | [] => (0, 0)
  | group :: groups =>
    let here := zeroRun (group :: groups)
    let later := longestZeroRun groups
    if later.2 ≤ here then (0, here) else (later.1 + 1, later.2)

/-- The longest run of two or more zeros is left out. Groups that hold an address of version 4 end
in the form of that version. -/
def v6Text (groups : List UInt16) : List Char :=
  match groups with
  | [0, 0, 0, 0, 0, 0xffff, high, low] =>
    "::ffff:".toList ++ v4Text (high >>> 8).toUInt8 high.toUInt8 (low >>> 8).toUInt8 low.toUInt8
  | groups =>
    let (start, length) := longestZeroRun groups
    if 1 < length then
      groupsText (groups.take start) ++ ':' :: ':' :: groupsText (groups.drop (start + length))
    else groupsText groups

namespace Address

def chars : Address → List Char
  | v4 first second third fourth => v4Text first second third fourth
  | v6 groups _ => v6Text groups

def text (address : Address) : String := String.ofList address.chars

def loopback : Address := v4 127 0 0 1

end Address

/-- One of the four numbers: at most three digits, no zero before others, below 256. -/
def readByte (text : List Char) : Option (UInt8 × List Char) :=
  match spanDigits text with
  | ([], _) => none
  | (first :: digits, rest) =>
    if 2 < digits.length ∨ (first = Digit.zero ∧ digits ≠ [])
        ∨ 255 < ofDigits (first :: digits) then none
    else some (UInt8.ofNat (ofDigits (first :: digits)), rest)

/-- The character that must come next, and what follows it. -/
def readChar (expected : Char) : List Char → Option (List Char)
  | [] => none
  | c :: rest => if c = expected then some rest else none

/-- Four numbers with points between them. -/
def readV4 (text : List Char) : Option ((UInt8 × UInt8 × UInt8 × UInt8) × List Char) := do
  let (first, rest) ← readByte text
  let (second, rest) ← readByte (← readChar '.' rest)
  let (third, rest) ← readByte (← readChar '.' rest)
  let (fourth, rest) ← readByte (← readChar '.' rest)
  some ((first, second, third, fourth), rest)

/-- One to four hexadecimal digits. -/
def readGroup (text : List Char) : Option (UInt16 × List Char) :=
  match spanMap HexDigit.ofChar? text with
  | ([], _) => none
  | (digits, rest) =>
    if 4 < digits.length then none
    else some (UInt16.ofNat (digits.foldl (fun value digit => 16 * value + digit.val) 0), rest)

/-- Two bytes as one group. -/
def groupOf (high low : UInt8) : UInt16 := UInt16.ofNat (high.toNat * 256 + low.toNat)

/-- What a run of groups consists of, whether it ended in the form of version 4, and what follows
it. -/
structure GroupRun where
  groups : List UInt16
  endsInV4 : Bool
  rest : List Char

/-- At most `limit` groups with colons between them; the last two may have the form of version 4. -/
def readGroups : Nat → Bool → List Char → GroupRun
  | 0, _, text => ⟨[], false, text⟩
  | limit + 1, isFirst, text =>
    match if isFirst then some text else readChar ':' text with
    | none => ⟨[], false, text⟩
    | some inner =>
      match if limit = 0 then none else readV4 inner with
      | some ((first, second, third, fourth), rest) =>
        ⟨[groupOf first second, groupOf third fourth], true, rest⟩
      | none =>
        match readGroup inner with
        | none => ⟨[], false, text⟩
        | some (group, rest) =>
          let run := readGroups limit false rest
          ⟨group :: run.groups, run.endsInV4, run.rest⟩

/-- The address with these groups, if there are eight. -/
def ofGroups? (groups : List UInt16) : Option Address :=
  if h : groups.length = 8 then some (.v6 groups h) else none

/-- Eight groups, or fewer with two colons for the zeros left out. -/
def readV6 (text : List Char) : Option (Address × List Char) := do
  let front := readGroups 8 true text
  if front.groups.length = 8 then
    return (← ofGroups? front.groups, front.rest)
  if front.endsInV4 then none
  let rest ← readChar ':' (← readChar ':' front.rest)
  let back := readGroups (7 - front.groups.length) true rest
  let zeros := List.replicate (8 - front.groups.length - back.groups.length) 0
  return (← ofGroups? (front.groups ++ zeros ++ back.groups), back.rest)

/-- An address of either version. -/
def readAddress (text : List Char) : Option (Address × List Char) :=
  match readV4 text with
  | some ((first, second, third, fourth), rest) => some (.v4 first second third fourth, rest)
  | none => readV6 text

/-- A text that is an address and nothing else. -/
def Address.ofText? (text : String) : Option Address :=
  match readAddress text.toList with
  | some (address, []) => some address
  | _ => none

/-- An address with a port. A scope may be named for an address of version 6. -/
structure SocketAddress where
  address : Address
  port : UInt16
  scope : UInt32
deriving DecidableEq, Repr

/-- A number of one or more digits below a bound. -/
def readBounded (bound : Nat) (text : List Char) : Option (Nat × List Char) :=
  match spanDigits text with
  | ([], _) => none
  | (digits, rest) => if ofDigits digits < bound then some (ofDigits digits, rest) else none

def readPort (text : List Char) : Option (UInt16 × List Char) := do
  let (port, rest) ← readBounded UInt16.size (← readChar ':' text)
  some (UInt16.ofNat port, rest)

/-- A percent sign and a number, if they come next; no scope counts as zero. -/
def readScope (text : List Char) : UInt32 × List Char :=
  match (readChar '%' text).bind (readBounded UInt32.size) with
  | some (scope, rest) => (UInt32.ofNat scope, rest)
  | none => (0, text)

/-- An address of version 4 with a port, or one of version 6 in brackets. -/
def readSocketAddress (text : List Char) : Option (SocketAddress × List Char) :=
  match readV4 text with
  | some ((first, second, third, fourth), rest) => do
    let (port, rest) ← readPort rest
    some (⟨.v4 first second third fourth, port, 0⟩, rest)
  | none => do
    let (address, rest) ← readV6 (← readChar '[' text)
    let (scope, rest) := readScope rest
    let (port, rest) ← readPort (← readChar ']' rest)
    some (⟨address, port, scope⟩, rest)

namespace SocketAddress

def text (socket : SocketAddress) : String :=
  let port := ':' :: numeral socket.port.toNat
  String.ofList <| match socket.address with
    | .v4 first second third fourth => v4Text first second third fourth ++ port
    | .v6 groups _ =>
      let scope := if socket.scope = 0 then [] else '%' :: numeral socket.scope.toNat
      '[' :: v6Text groups ++ scope ++ ']' :: port

/-- A text that is an address with a port and nothing else. -/
def ofText? (text : String) : Option SocketAddress :=
  match readSocketAddress text.toList with
  | some (socket, []) => some socket
  | _ => none

end SocketAddress

end JobDispatch.Network
