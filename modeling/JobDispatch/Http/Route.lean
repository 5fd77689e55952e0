import JobDispatch.Uuid
set_option autoImplicit false

namespace JobDispatch.Http

/-- The path of a request target, without query and fragment. -/
def pathOf (target : List Char) : List Char := target.takeWhile fun c => c != '?' && c != '#'

def splitSlashes : List Char → List (List Char)
  | [] => [[]]
  | c :: rest =>
    if c = '/' then [] :: splitSlashes rest
    else match splitSlashes rest with
      | [] => [[c]]
      | part :: parts => (c :: part) :: parts

/-- The bytes that a percent-encoded text stands for. A percent sign that is not followed by two
hexadecimal digits stands for itself. -/
def percentDecode : List Char → List UInt8
  | [] => []
  | '%' :: a :: b :: rest =>
    match HexDigit.ofChar? a, HexDigit.ofChar? b with
    | some high, some low => UInt8.ofNat (16 * high.val + low.val) :: percentDecode rest
    | _, _ => 0x25 :: percentDecode (a :: b :: rest)
  | c :: rest => String.utf8EncodeChar c ++ percentDecode rest

/-- The text that a percent-encoded segment stands for, if its bytes are a text. -/
def decodeSegment? (segment : List Char) : Option String :=
  String.fromUTF8? ⟨(percentDecode segment).toArray⟩

/-- A path that is served, with the segments that name something as they stand. -/
inductive Route where
  | jobs
  | job (id : List Char)
  | completion (id : List Char)
  | failure (id : List Char)
  | engines
  | engineJobs (engine : List Char)
  | heartbeat
  | benchmark
  | assignment
  | status
deriving DecidableEq, Repr

namespace Route

/-- The route with these segments. A name is empty only where something follows it. -/
def ofSegments? : List String → Option Route
  | ["jobs"] => some jobs
  | ["jobs", id] => if id.isEmpty then none else some (job id.toList)
  | ["jobs", id, "complete"] => some (completion id.toList)
  | ["jobs", id, "fail"] => some (failure id.toList)
  | ["engines"] => some engines
  | ["engines", "heartbeat"] => some heartbeat
  | ["engines", "benchmark"] => some benchmark
  | ["engines", engine, "jobs"] => some (engineJobs engine.toList)
  | ["assign"] => some assignment
  | ["status"] => some status
  | _ => none

def ofTarget? (target : String) : Option Route :=
  match splitSlashes (pathOf target.toList) with
  | [] :: segments => ofSegments? (segments.map String.ofList)
  | _ => none

end Route

end JobDispatch.Http
