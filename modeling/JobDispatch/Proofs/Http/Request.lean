import JobDispatch.Http.Request
import JobDispatch.Proofs.Board.Operation
import JobDispatch.Proofs.Http.Route
set_option autoImplicit false

namespace JobDispatch.Http

open Json (Value RecordDecoder)
open Json.Decode Json.RecordDecoder

/-- The operation of the desk that is asked for. A submission without a bound takes this one. -/
def Order.operation (defaultMaxRetries : UInt32) : Order → Operation
  | submit submission => .submit (submission.request defaultMaxRetries)
  | complete job outputUrl => .complete job outputUrl
  | fail job reason => .fail job reason
  | heartbeat report => .heartbeat report
  | benchmark engine time => .benchmark engine time
  | assign => .assign

namespace Request

def operation? (request : Request) (defaultMaxRetries : UInt32) : Option Operation :=
  match request.meaning with
  | .ok (.order order) => some (order.operation defaultMaxRetries)
  | _ => none

/-- The path of a request, without query and fragment. -/
def path (request : Request) : String := String.ofList (pathOf request.target.toList)

structure Posts (request : Request) (path : String) : Prop where
  method : request.method = "POST"
  path : request.path = path

def value (request : Request) : Value :=
  (Json.Document.read (Text.symbolsOfBytes request.body)).value

/-- The body is JSON, by its media type and by its text, and holds this record. -/
structure Carries {α : Type} (request : Request) (fields : RecordDecoder α) (a : α) : Prop where
  isJson : request.isJson = true
  decodes : Json.decodeSymbols fields.decode (Text.symbolsOfBytes request.body) = .ok a

/-- The body does not have the field, or has it as `null`. -/
def LeavesOut (request : Request) (name : String) (place : Nat) : Prop :=
  ∀ held ∈ request.value.field? name place, held = .null

end Request

/-- A segment of a path is the text of this id, percent-encoded or not. -/
structure IsJobSegment (segment : List Char) (job : Uuid) : Prop where
  whole : '/' ∉ segment
  text : (decodeSegment? segment).bind Uuid.ofText? = some job

/-- The operation that a well-formed request to post denotes. The bound of a submission is the one
in the body, and the given one where the body has none. -/
inductive Request.Denotes (request : Request) (defaultMaxRetries : UInt32) : Operation → Prop where
  | submit {submission : Submission} {bound : UInt32} (posted : request.Posts "/jobs")
      (body : request.Carries submissionFields submission)
      (bounded : submission.maxRetries = some bound) :
      Denotes request defaultMaxRetries (.submit
        ⟨submission.sourceUrl, submission.targetCodec, submission.jobSize, bound⟩)
  | submitUnbounded {submission : Submission} (posted : request.Posts "/jobs")
      (body : request.Carries submissionFields submission)
      (unbounded : request.LeavesOut "max_retries" 3) :
      Denotes request defaultMaxRetries (.submit
        ⟨submission.sourceUrl, submission.targetCodec, submission.jobSize, defaultMaxRetries⟩)
  | complete {segment : List Char} {job : Uuid} {outputUrl : String}
      (posted : request.Posts ("/jobs/" ++ String.ofList segment ++ "/complete"))
      (named : IsJobSegment segment job) (body : request.Carries outputFields outputUrl) :
      Denotes request defaultMaxRetries (.complete job outputUrl)
  | fail {segment : List Char} {job : Uuid} {reason : String}
      (posted : request.Posts ("/jobs/" ++ String.ofList segment ++ "/fail"))
      (named : IsJobSegment segment job) (body : request.Carries reasonFields reason) :
      Denotes request defaultMaxRetries (.fail job reason)
  | heartbeat {report : Heartbeat} (posted : request.Posts "/engines/heartbeat")
      (body : request.Carries Heartbeat.fields report) :
      Denotes request defaultMaxRetries (.heartbeat report)
  | benchmark {engine : String} {time : Binary64} (posted : request.Posts "/engines/benchmark")
      (body : request.Carries benchmarkFields (engine, time)) :
      Denotes request defaultMaxRetries (.benchmark engine time)
  | assign (posted : request.Posts "/assign") : Denotes request defaultMaxRetries .assign

theorem names_submissionFields : (submissionFields.rules.map Json.FieldRule.name).Nodup := by
  decide

/-- A submission is without a bound when its field is missing or `null`. -/
theorem maxRetries_eq_none_iff {value : Value} {submission : Submission}
    (read : submissionFields.decode value = .ok submission) :
    submission.maxRetries = none ↔ ∀ held ∈ value.field? "max_retries" 3, held = .null := by
  obtain ⟨found, built, entries⟩ := build_of_decode names_submissionFields read
  have entry : found.members.lookup "max_retries" = value.field? "max_retries" 3 :=
    entries 3 _ rfl
  obtain ⟨make, made, rest⟩ := bind_eq_ok.1 built
  obtain ⟨bound, field, equal⟩ := bind_eq_ok.1 rest
  cases equal
  have kept : (make bound).maxRetries = bound := by
    suffices gives : Gives (Submission.mk <$> required "source_url" text
        <*> required "target_codec" text <*> required "job_size" float)
        fun make => ∀ bound, (make bound).maxRetries = bound from gives found make made bound
    iterate 2 apply Gives.step
    apply Gives.map
    intros
    rfl
  rw [kept, ← entry]
  exact build_optional field

namespace Request

theorem record_eq_ok {α : Type} {request : Request} {fields : RecordDecoder α} {a : α} :
    request.record fields = .ok a ↔ request.Carries fields a := by
  constructor
  · intro read
    rw [record] at read
    split at read
    · rename_i isJson
      split at read
      · rename_i decodes
        cases read
        exact ⟨isJson, decodes⟩
      · cases read
      · cases read
    · cases read
  · rintro ⟨isJson, decodes⟩
    simp only [record, isJson, if_true, decodes]

/-- What a body decodes to is decoded from its value. -/
theorem Carries.decode_value {α : Type} {request : Request} {fields : RecordDecoder α} {a : α}
    (carries : request.Carries fields a) : fields.decode request.value = .ok a :=
  (Json.decodeSymbols_eq_ok.1 carries.decodes).1

theorem denotes_submit {request : Request} {submission : Submission}
    (posted : request.Posts "/jobs") (body : request.Carries submissionFields submission)
    (defaultMaxRetries : UInt32) :
    request.Denotes defaultMaxRetries (.submit (submission.request defaultMaxRetries)) := by
  rw [Submission.request]
  cases bound : submission.maxRetries with
  | none => exact .submitUnbounded posted body ((maxRetries_eq_none_iff body.decode_value).1 bound)
  | some bound => exact .submit posted body bound

end Request

theorem jobSegment_eq_ok {segment : List Char} {job : Uuid} :
    jobSegment segment = .ok job ↔ (decodeSegment? segment).bind Uuid.ofText? = some job := by
  rw [jobSegment]
  split
  · rename_i found
    simp [found]
  · rename_i none
    simp [none]

namespace Request

variable {request : Request}

/-- Only a request to post to a route can ask for something to be carried out. -/
theorem meaning_eq_order {order : Order} :
    request.meaning = .ok (.order order) ↔ ∃ route : Route,
      request.Posts route.path ∧ route.IsNamed ∧ route.order request = .ok order := by
  constructor
  · intro meant
    rw [meaning] at meant
    split at meant
    · cases meant
    · split at meant
      · cases meant
      · rename_i route found
        obtain ⟨path, named⟩ := Route.ofTarget?_eq_some.1 found
        split at meant
        · obtain ⟨_, _, other⟩ := map_eq_ok.1 meant
          cases other
        · split at meant
          · rename_i method
            obtain ⟨_, asked, equal⟩ := map_eq_ok.1 meant
            cases equal
            exact ⟨route, ⟨method, path⟩, named, asked⟩
          · cases meant
  · rintro ⟨route, posted, named, asked⟩
    have found := Route.ofTarget?_eq_some.2 ⟨posted.path, named⟩
    have post : ¬("POST" = "GET" ∨ "POST" = "HEAD") := by decide
    rw [meaning, posted.method, if_neg (by decide), found]
    dsimp only
    rw [if_neg post, if_pos rfl, asked]
    rfl

/-- A request to get the path of a route asks what can be read there. -/
theorem meaning_of_get {route : Route} (get : request.method = "GET")
    (path : request.path = route.path) (named : route.IsNamed) :
    request.meaning = route.query.map .query := by
  have found := Route.ofTarget?_eq_some.2 ⟨path, named⟩
  rw [meaning, get, if_neg (by decide), found]
  dsimp only
  rw [if_pos (.inl rfl)]

/-- What is asked for by a request to post to a route is denoted by that request. -/
theorem denotes_of_order {route : Route} {order : Order} (posted : request.Posts route.path)
    (named : route.IsNamed) (asked : route.order request = .ok order)
    (defaultMaxRetries : UInt32) :
    request.Denotes defaultMaxRetries (order.operation defaultMaxRetries) := by
  cases route with
  | jobs =>
    obtain ⟨submission, body, equal⟩ := map_eq_ok.1 asked
    cases equal
    exact denotes_submit posted (record_eq_ok.1 body) defaultMaxRetries
  | completion segment =>
    obtain ⟨job, text, rest⟩ := bind_eq_ok.1 asked
    obtain ⟨outputUrl, body, equal⟩ := bind_eq_ok.1 rest
    cases equal
    exact .complete posted ⟨named, jobSegment_eq_ok.1 text⟩ (record_eq_ok.1 body)
  | failure segment =>
    obtain ⟨job, text, rest⟩ := bind_eq_ok.1 asked
    obtain ⟨reason, body, equal⟩ := bind_eq_ok.1 rest
    cases equal
    exact .fail posted ⟨named, jobSegment_eq_ok.1 text⟩ (record_eq_ok.1 body)
  | heartbeat =>
    obtain ⟨report, body, equal⟩ := map_eq_ok.1 asked
    cases equal
    exact .heartbeat posted (record_eq_ok.1 body)
  | benchmark =>
    obtain ⟨measured, body, equal⟩ := map_eq_ok.1 asked
    cases equal
    exact .benchmark posted (record_eq_ok.1 body)
  | assignment =>
    cases asked
    exact .assign posted
  | _ => cases asked

/-- What is denoted by a request is asked for on a route. -/
theorem order_of_denotes {defaultMaxRetries : UInt32} {operation : Operation}
    (denoted : request.Denotes defaultMaxRetries operation) : ∃ (route : Route) (order : Order),
      request.Posts route.path ∧ route.IsNamed ∧ route.order request = .ok order
        ∧ order.operation defaultMaxRetries = operation := by
  cases denoted with
  | @submit submission bound posted body bounded =>
    refine ⟨.jobs, _, posted, trivial, map_eq_ok.2 ⟨_, record_eq_ok.2 body, rfl⟩, ?_⟩
    rw [Order.operation, Submission.request, bounded, Option.getD_some]
  | @submitUnbounded submission posted body unbounded =>
    refine ⟨.jobs, _, posted, trivial, map_eq_ok.2 ⟨_, record_eq_ok.2 body, rfl⟩, ?_⟩
    have none := (maxRetries_eq_none_iff body.decode_value).2 unbounded
    rw [Order.operation, Submission.request, none, Option.getD_none]
  | @complete segment job outputUrl posted named body =>
    refine ⟨.completion segment, .complete job outputUrl, posted, named.whole, ?_, rfl⟩
    exact bind_eq_ok.2 ⟨job, jobSegment_eq_ok.2 named.text,
      bind_eq_ok.2 ⟨outputUrl, record_eq_ok.2 body, rfl⟩⟩
  | @fail segment job reason posted named body =>
    refine ⟨.failure segment, .fail job reason, posted, named.whole, ?_, rfl⟩
    exact bind_eq_ok.2 ⟨job, jobSegment_eq_ok.2 named.text,
      bind_eq_ok.2 ⟨reason, record_eq_ok.2 body, rfl⟩⟩
  | heartbeat posted body =>
    exact ⟨.heartbeat, _, posted, trivial, map_eq_ok.2 ⟨_, record_eq_ok.2 body, rfl⟩, rfl⟩
  | benchmark posted body =>
    exact ⟨.benchmark, _, posted, trivial, map_eq_ok.2 ⟨_, record_eq_ok.2 body, rfl⟩, rfl⟩
  | assign posted => exact ⟨.assignment, _, posted, trivial, rfl, rfl⟩

/-- A request asks for an operation exactly when it denotes it. -/
theorem operation?_eq_some {defaultMaxRetries : UInt32} {operation : Operation} :
    request.operation? defaultMaxRetries = some operation ↔
      request.Denotes defaultMaxRetries operation := by
  constructor
  · intro asked
    rw [operation?] at asked
    split at asked
    · rename_i order meant
      cases asked
      obtain ⟨route, posted, named, ordered⟩ := meaning_eq_order.1 meant
      exact denotes_of_order posted named ordered defaultMaxRetries
    · cases asked
  · intro denoted
    obtain ⟨route, order, posted, named, ordered, equal⟩ := order_of_denotes denoted
    rw [operation?, meaning_eq_order.2 ⟨route, posted, named, ordered⟩, ← equal]

end Request

end JobDispatch.Http
