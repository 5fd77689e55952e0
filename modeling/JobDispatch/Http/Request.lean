import JobDispatch.Desk
import JobDispatch.Http.MediaType
import JobDispatch.Http.Route
set_option autoImplicit false

/- What a request asks for: to read something, to carry something out, or nothing that is
understood. The path is looked at first, then the method, then the names in the path, then the body.
-/
namespace JobDispatch.Http

structure Request where
  method : String
  target : String
  contentType : Option String
  body : ByteArray

inductive Query where
  | jobs
  | job (id : Uuid)
  | engines
  | engineJobs (engine : String)
  | statistics
deriving DecidableEq, Repr

/-- A submission; without a bound of its own it takes the one from the settings. -/
structure Submission where
  sourceUrl : String
  targetCodec : String
  jobSize : Binary64
  maxRetries : Option UInt32
deriving DecidableEq, Repr

inductive Order where
  | submit (submission : Submission)
  | complete (job : Uuid) (outputUrl : String)
  | fail (job : Uuid) (reason : String)
  | heartbeat (report : Heartbeat)
  | benchmark (engine : String) (time : Binary64)
  | assign
deriving DecidableEq, Repr

inductive Meaning where
  | preflight
  | query (query : Query)
  | order (order : Order)
deriving DecidableEq, Repr

inductive Rejection where
  | unknownPath
  | methodNotAllowed
  | badPath
  | notJson
  | malformedBody
  | unexpectedBody
deriving DecidableEq, Repr

def Rejection.status : Rejection → Nat
  | unknownPath => 404
  | methodNotAllowed => 405
  | badPath => 400
  | notJson => 415
  | malformedBody => 400
  | unexpectedBody => 422

/-- The bound of a submission, its own or the one from the settings. -/
def Submission.request (submission : Submission) (defaultMaxRetries : UInt32) : JobRequest :=
  ⟨submission.sourceUrl, submission.targetCodec, submission.jobSize,
    submission.maxRetries.getD defaultMaxRetries⟩

def jobSegment (segment : List Char) : Except Rejection Uuid :=
  match (decodeSegment? segment).bind Uuid.ofText? with
  | some id => .ok id
  | none => .error .badPath

def engineSegment (segment : List Char) : Except Rejection String :=
  match decodeSegment? segment with
  | some engine => .ok engine
  | none => .error .badPath

section Bodies

open Json Json.Decode Json.RecordDecoder

def submissionFields : RecordDecoder Submission :=
  Submission.mk <$> required "source_url" text <*> required "target_codec" text
    <*> required "job_size" float <*> optional "max_retries" word32

/-- The body that reports a completed job. -/
def outputFields : RecordDecoder String := required "output_url" text

/-- The body that reports a failed job. -/
def reasonFields : RecordDecoder String := required "error_message" text

def benchmarkFields : RecordDecoder (String × Binary64) :=
  Prod.mk <$> required "engine_id" text <*> required "benchmark_time" float

end Bodies

/-- The media type of the body is JSON. -/
def Request.isJson (request : Request) : Bool :=
  ((request.contentType.bind MediaType.ofText?).map MediaType.isJson).getD false

def Request.record {α : Type} (request : Request) (fields : Json.RecordDecoder α) :
    Except Rejection α :=
  if request.isJson then
    match Json.decodeSymbols fields.decode (Text.symbolsOfBytes request.body) with
    | .ok a => .ok a
    | .error .malformed => .error .malformedBody
    | .error .mismatch => .error .unexpectedBody
  else .error .notJson

def Route.query : Route → Except Rejection Query
  | jobs => .ok .jobs
  | job id => (jobSegment id).map .job
  | engines => .ok .engines
  | engineJobs engine => (engineSegment engine).map .engineJobs
  | status => .ok .statistics
  | _ => .error .methodNotAllowed

def Route.order (request : Request) : Route → Except Rejection Order
  | jobs => (request.record submissionFields).map .submit
  | completion id => do
    let job ← jobSegment id
    return .complete job (← request.record outputFields)
  | failure id => do
    let job ← jobSegment id
    return .fail job (← request.record reasonFields)
  | heartbeat => (request.record Heartbeat.fields).map .heartbeat
  | benchmark => (request.record benchmarkFields).map fun (engine, time) => .benchmark engine time
  | assignment => .ok .assign
  | _ => .error .methodNotAllowed

/-- What a request asks for. The method `HEAD` asks for what `GET` does; the method `OPTIONS` is
answered on every path. -/
def Request.meaning (request : Request) : Except Rejection Meaning :=
  if request.method = "OPTIONS" then .ok .preflight
  else match Route.ofTarget? request.target with
    | none => .error .unknownPath
    | some route =>
      if request.method = "GET" ∨ request.method = "HEAD" then route.query.map .query
      else if request.method = "POST" then (route.order request).map .order
      else .error .methodNotAllowed

end JobDispatch.Http
