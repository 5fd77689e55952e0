import JobDispatch.Json.Printer
import JobDispatch.Wire.Records
set_option autoImplicit false

/- The document that holds a whole board: one object of all jobs under their ids, one of all engines
under theirs. A document is accepted when each record is filed under its own id and no job breaks a
rule. -/
namespace JobDispatch

open Json (Value Decoder RecordDecoder)

namespace Board

/-- The document, with the records in their order on the board. -/
def toJson (board : Board) : Value := .record
  [("jobs", .record (board.jobs.entries.map fun (id, job) => (id.text, job.toJson))),
    ("engines", .record (board.engines.entries.map fun (id, engine) => (id, engine.toJson)))]

/-- The jobs of a document under their ids; of two records under one id the later one counts. -/
def jobsDecoder : Decoder JobLedger := fun value =>
  (Json.Decode.members Uuid.ofText? Job.fields.decode value).map Ledger.ofList

/-- The engines of a document under their ids; of two records under one id the later one counts. -/
def enginesDecoder : Decoder EnginePool := fun value =>
  (Json.Decode.members some Engine.fields.decode value).map Ledger.ofList

/-- Either part of a document may be missing. -/
def fields : RecordDecoder Board :=
  Board.mk <$> Json.RecordDecoder.defaulted "jobs" jobsDecoder Ledger.empty
    <*> Json.RecordDecoder.defaulted "engines" enginesDecoder Ledger.empty

/-- A job filed under its own id that breaks no rule. -/
def checkJob (key : Uuid) (job : Job) : Except Refusal Unit :=
  if key = job.id then job.check else .error (.input (.misfiledJob key job.id))

/-- An engine filed under its own id. -/
def checkEngine (key : String) (engine : Engine) : Except Refusal Unit :=
  if key = engine.id then .ok () else .error (.input (.misfiledEngine key engine.id))

/-- Every record is in order, jobs first; the first fault is reported. -/
def check (board : Board) : Except Refusal Unit := do
  board.jobs.entries.forM fun (key, job) => checkJob key job
  board.engines.entries.forM fun (key, engine) => checkEngine key engine

def document (board : Board) : String := board.toJson.indentedText

def documentBytes (board : Board) : ByteArray := board.document.toUTF8

/-- Why a document is not understood. -/
def faultDetail : Json.Fault → String
  | .malformed => "the document is not JSON"
  | .mismatch => "the document is JSON of another shape"

def ofBytes? (content : ByteArray) : Except Refusal Board :=
  match Json.decodeSymbols fields.decode (Text.symbolsOfBytes content) with
  | .error fault => .error (.unreadable (faultDetail fault))
  | .ok board => do
    board.check
    return board

end Board

end JobDispatch
