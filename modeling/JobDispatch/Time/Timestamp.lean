import JobDispatch.Text.Digit
import JobDispatch.Text.Blank
import JobDispatch.Time.Instant
set_option autoImplicit false

namespace JobDispatch.Time

open Text

/-- A year outside 0 … 9999 carries a sign. -/
def yearText (year : Int) : List Char :=
  if 0 ≤ year ∧ year ≤ 9999 then paddedNumeral 4 year.toNat
  else (if year < 0 then '-' else '+') :: paddedNumeral 4 year.natAbs

/-- No digits, or three, six or nine of them. -/
def fractionText (nanos : Nat) : List Char :=
  if nanos = 0 then []
  else if nanos % 1000000 = 0 then '.' :: paddedNumeral 3 (nanos / 1000000)
  else if nanos % 1000 = 0 then '.' :: paddedNumeral 6 (nanos / 1000)
  else '.' :: paddedNumeral 9 nanos

/-- The text of an instant in universal time, with a given mark for the offset zero. -/
def timestamp (mark : String) (t : Instant) : String :=
  let date := Date.ofDayNumber (t.seconds / 86400)
  let clock := t.secondOfDay.toNat
  let second := clock % 60 + if t.isLeap then 1 else 0
  String.ofList
    (yearText date.year ++ '-' :: paddedNumeral 2 date.month ++ '-' :: paddedNumeral 2 date.day
      ++ 'T' :: paddedNumeral 2 (clock / 3600) ++ ':' :: paddedNumeral 2 (clock / 60 % 60)
      ++ ':' :: paddedNumeral 2 second ++ fractionText (t.nanos % 1000000000) ++ mark.toList)

/-- The text with the mark `Z`. -/
def Instant.text (t : Instant) : String := timestamp "Z" t

/-- A number of one to `limit` digits after white space. -/
def readNumber (limit : Nat) (text : List Char) : Option (Nat × List Char) :=
  match takeDigits limit (skipBlank text) with
  | ([], _) => none
  | (digits, rest) => some (ofDigits digits, rest)

/-- A number of digits without a limit. -/
def readLongNumber (text : List Char) : Option (Nat × List Char) :=
  match spanDigits text with
  | ([], _) => none
  | (digits, rest) => some (ofDigits digits, rest)

/-- A year of one to four digits, or of any number of digits after a sign. -/
def readYear (text : List Char) : Option (Int × List Char) :=
  match skipBlank text with
  | '-' :: rest => (readLongNumber rest).map fun (year, rest) => (-(year : Int), rest)
  | '+' :: rest => (readLongNumber rest).map fun (year, rest) => ((year : Int), rest)
  | rest => (readNumber 4 rest).map fun (year, rest) => ((year : Int), rest)

/-- A mark, after white space, and what follows it. -/
def readMark (mark : Char) (text : List Char) : Option (List Char) :=
  match skipBlank text with
  | c :: rest => if c = mark then some rest else none
  | [] => none

/-- The nanoseconds of a fraction; digits after the ninth are cut off. -/
def readFraction : List Char → Option (Nat × List Char)
  | '.' :: rest =>
    match spanDigits rest with
    | ([], _) => none
    | (digits, rest) =>
      some (ofDigits ((digits ++ List.replicate 9 Digit.zero).take 9), rest)
  | rest => some (0, rest)

/-- The letters that name universal time, in either case. -/
def isUniversalName (a b c : Char) : Bool :=
  (a == 'U' || a == 'u') && (b == 'T' || b == 't') && (c == 'C' || c == 'c')

/-- Two digits of hours, separators, two digits of minutes; in seconds, less than a day. -/
def readOffsetDigits (text : List Char) : Option (Int × List Char) := do
  let (hours, rest) ← match takeDigits 2 text with
    | ([tens, units], rest) => some (ofDigits [tens, units], rest)
    | _ => none
  let rest := rest.dropWhile fun c => c == ':' || isBlank c
  let (minutes, rest) ← match takeDigits 2 rest with
    | ([tens, units], rest) => some (ofDigits [tens, units], rest)
    | _ => none
  if minutes < 60 ∧ hours < 24 then some (((hours * 3600 + minutes * 60 : Nat) : Int), rest)
  else none

/-- The offset from universal time, in seconds. -/
def readOffset (text : List Char) : Option (Int × List Char) :=
  match text with
  | 'Z' :: rest => some (0, rest)
  | 'z' :: rest => some (0, rest)
  | '+' :: rest => readOffsetDigits rest
  | '-' :: rest => (readOffsetDigits rest).map fun (offset, rest) => (-offset, rest)
  | '\u2212' :: rest => (readOffsetDigits rest).map fun (offset, rest) => (-offset, rest)
  | a :: b :: c :: rest => if isUniversalName a b c then some (0, rest) else none
  | _ => none

/-- The instant that a local date, time of day and offset name. A sixtieth second is the leap
second after the fifty-ninth. -/
def Instant.ofLocal? (date : Date) (hour minute second nanos : Nat) (offset : Int) :
    Option Instant :=
  if date.isValid ∧ -262143 ≤ date.year ∧ date.year ≤ 262142 ∧ hour < 24 ∧ minute < 60
      ∧ second ≤ 60 then
    let clock : Nat := hour * 3600 + minute * 60 + min second 59
    Instant.ofParts? (date.dayNumber * 86400 + clock - offset)
      (if second = 60 then nanos + 1000000000 else nanos)
  else none

/-- Reads a timestamp: parts may stand after white space, the date ends in `T`, `t` or a space, and
the offset is required. -/
def Instant.ofText? (text : String) : Option Instant := do
  let (year, rest) ← readYear text.toList
  let rest ← readMark '-' rest
  let (month, rest) ← readNumber 2 rest
  let rest ← readMark '-' rest
  let (day, rest) ← readNumber 2 rest
  let rest ← match rest with
    | 'T' :: rest => some rest
    | 't' :: rest => some rest
    | ' ' :: rest => some rest
    | _ => none
  let (hour, rest) ← readNumber 2 rest
  let rest ← readMark ':' rest
  let (minute, rest) ← readNumber 2 rest
  let rest ← readMark ':' rest
  let (second, rest) ← readNumber 2 rest
  let (nanos, rest) ← readFraction rest
  let (offset, rest) ← readOffset (skipBlank rest)
  if (skipBlank rest).isEmpty then
    Instant.ofLocal? ⟨year, month, day⟩ hour minute second nanos offset
  else none

end JobDispatch.Time
