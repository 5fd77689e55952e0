import JobDispatch.Http.Service
import JobDispatch.Proofs.Desk.Session
import JobDispatch.Proofs.Http.Request
set_option autoImplicit false

namespace JobDispatch.Http

open Json (Value Decoder)

/-- There is an answer, and its status code is one of those that tell success. -/
def succeeded : Except Breakdown Response → Bool
  | .ok response => decide (200 ≤ response.status ∧ response.status < 300)
  | .error _ => false

/-- The answer is a success, and this is decoded from the bytes of its body. -/
def Tells {α : Type} (answer : Except Breakdown Response) (decode : Decoder α) (a : α) : Prop :=
  ∃ body, answer = .ok (.json 200 body)
    ∧ Json.decodeSymbols decode (Text.symbolsOfBytes body.compactText.toUTF8) = .ok a

theorem succeeded_refused (refusal : Refusal) : succeeded (.ok (.refused refusal)) = false := by
  cases refusal <;> rfl

theorem tells_json {α : Type} {decode : Decoder α} {value : Value} {a : α}
    (writable : value.IsWritable) (read : decode value = .ok a) :
    Tells (.ok (.json 200 value)) decode a :=
  ⟨value, rfl, Json.decodeSymbols_print Json.isBlank_compact writable read⟩

section Orders

variable {α : Type} {render : α → Response} {answer : α → Answer}

/-- A response to an operation tells success when the operation was answered, and the desk is the
one after the operation. -/
theorem respond_answering (renders : ∀ a, succeeded (.ok (render a)) = true)
    (result : Except Setback α × Desk) :
    (respond render result).2 = (Operation.answering answer result).2
      ∧ succeeded (respond render result).1 = (Operation.answering answer result).1.isOk := by
  obtain ⟨outcome, desk⟩ := result
  cases outcome with
  | error setback =>
    cases setback with
    | refused refusal => exact ⟨rfl, succeeded_refused refusal⟩
    | broken breakdown => exact ⟨rfl, rfl⟩
  | ok a => exact ⟨rfl, renders a⟩

theorem Order.perform_operation (order : Order) (moment : Moment) (desk : Desk) :
    let operation := order.operation desk.settings.defaultMaxRetries
    (order.perform moment desk).2 = (operation.perform moment desk).2
      ∧ succeeded (order.perform moment desk).1 = (operation.perform moment desk).1.isOk := by
  cases order <;> exact respond_answering (fun _ => rfl) _

end Orders

section Serve

variable (request : Request) (moment : Moment) (desk : Desk)

/-- Leaving out the body changes neither the status code nor the desk. -/
theorem serve_eq_serveMeaning :
    (serve request moment desk).2 = (serveMeaning request.meaning moment desk).2
      ∧ succeeded (serve request moment desk).1 =
        succeeded (serveMeaning request.meaning moment desk).1 := by
  refine ⟨rfl, ?_⟩
  simp only [serve]
  cases (serveMeaning request.meaning moment desk).1 with
  | error breakdown => rfl
  | ok response =>
    simp only [Except.map]
    split <;> rfl

variable {request} {operation : Operation}

/-- A request carries out the operation that it asks for. -/
theorem serve_of_operation?_eq_some
    (asked : request.operation? desk.settings.defaultMaxRetries = some operation) :
    (serve request moment desk).2 = (operation.perform moment desk).2
      ∧ succeeded (serve request moment desk).1 = (operation.perform moment desk).1.isOk := by
  obtain ⟨after, status⟩ := serve_eq_serveMeaning request moment desk
  rw [Request.operation?] at asked
  split at asked
  · rename_i order meant
    cases asked
    rw [after, status, meant]
    exact order.perform_operation moment desk
  · cases asked

/-- A request that asks for no operation changes nothing. -/
theorem serve_of_operation?_eq_none
    (none : request.operation? desk.settings.defaultMaxRetries = none) :
    (serve request moment desk).2 = desk := by
  obtain ⟨after, _⟩ := serve_eq_serveMeaning request moment desk
  rw [after]
  rw [Request.operation?] at none
  split at none
  · cases none
  · rename_i other
    cases meant : request.meaning with
    | error rejection => rfl
    | ok meaning =>
      cases meaning with
      | preflight => rfl
      | query query => rfl
      | order order => exact absurd meant (other order)

/-- A request that is not answered, or not with success, changes neither the board nor the
document. -/
theorem untouched_of_serve (failed : succeeded (serve request moment desk).1 = false) :
    Desk.Untouched desk (serve request moment desk).2 := by
  cases asked : request.operation? desk.settings.defaultMaxRetries with
  | none =>
    rw [serve_of_operation?_eq_none moment desk asked]
    exact .refl desk
  | some operation =>
    obtain ⟨after, status⟩ := serve_of_operation?_eq_some moment desk asked
    rw [failed] at status
    cases performed : operation.perform moment desk with
    | mk result reached =>
      cases result with
      | error fault =>
        rw [after, performed]
        exact Operation.perform_error performed
      | ok answer =>
        rw [performed] at status
        cases status

/-- A request to read changes nothing. -/
theorem serve_get (get : request.method = "GET") : (serve request moment desk).2 = desk := by
  apply serve_of_operation?_eq_none
  rw [Option.eq_none_iff_forall_ne_some]
  intro operation asked
  obtain ⟨_, _, posted, _⟩ := Request.order_of_denotes (Request.operation?_eq_some.1 asked)
  have method := get.symm.trans posted.method
  revert method
  decide

end Serve

/-- A request, and the time at which it is answered. -/
structure Exchange where
  request : Request
  moment : Moment

def Exchange.serve (desk : Desk) (exchange : Exchange) : Desk :=
  (Http.serve exchange.request exchange.moment desk).2

def serveAll (exchanges : List Exchange) (desk : Desk) : Desk := exchanges.foldl Exchange.serve desk

def Exchange.turn? (defaultMaxRetries : UInt32) (exchange : Exchange) : Option Turn :=
  (exchange.request.operation? defaultMaxRetries).map fun operation =>
    .ask operation exchange.moment

/-- Answering requests one after another is carrying out the operations that they ask for. -/
theorem serveAll_eq_run (exchanges : List Exchange) (session : Session) :
    serveAll exchanges session.desk = (session.run
      (exchanges.filterMap (Exchange.turn? session.desk.settings.defaultMaxRetries))).desk := by
  induction exchanges generalizing session with
  | nil => rfl
  | cons exchange exchanges ih =>
    rw [serveAll, List.foldl_cons, ← serveAll, Exchange.serve, List.filterMap_cons, Exchange.turn?]
    cases asked : exchange.request.operation? session.desk.settings.defaultMaxRetries with
    | none =>
      rw [serve_of_operation?_eq_none exchange.moment session.desk asked]
      exact ih session
    | some operation =>
      obtain ⟨after, _⟩ := serve_of_operation?_eq_some exchange.moment session.desk asked
      have kept := (Operation.continues_perform operation exchange.moment session.desk).settings
      have later := ih (session.turn (.ask operation exchange.moment))
      simp only [Session.turn, kept] at later
      rw [after, later]
      rfl

section Listings

variable {request : Request} {desk : Desk}

/-- A request to get the path of a route is answered from the desk. -/
theorem serve_query {route : Route} {query : Query} (asks : route.query = .ok query)
    (get : request.method = "GET") (path : request.path = route.path) (named : route.IsNamed)
    (moment : Moment) : serve request moment desk = (.ok (query.answer desk), desk) := by
  have meant : request.meaning = .ok (.query query) := by
    rw [Request.meaning_of_get get path named, asks]
    rfl
  have body : ¬request.method = "HEAD" := by
    rw [get]
    decide
  rw [serve, meant]
  dsimp only [serveMeaning, Except.map]
  rw [if_neg body]

/-- A request for all jobs is told the jobs of the board. -/
theorem tells_jobs (storable : desk.board.Storable) (get : request.method = "GET")
    (path : request.path = "/jobs") (moment : Moment) :
    Tells (serve request moment desk).1 (Json.Decode.list Job.fields.decode)
      desk.board.jobs.records := by
  have read : ∀ job ∈ desk.board.jobs.records, Job.fields.decode job.toJson = .ok job := by
    intro job member
    obtain ⟨key, found⟩ := Ledger.mem_records_iff.1 member
    exact job.decode_toJson (storable.jobs key job found).2.2
  rw [serve_query (show Route.jobs.query = .ok .jobs from rfl) get path trivial]
  exact tells_json (Value.areWritable_map Job.isWritable_toJson _)
    (Json.Decode.list_array read)

/-- A request for all engines is told the engines of the board. -/
theorem tells_engines (storable : desk.board.Storable) (get : request.method = "GET")
    (path : request.path = "/engines") (moment : Moment) :
    Tells (serve request moment desk).1 (Json.Decode.list Engine.fields.decode)
      desk.board.engines.records := by
  have read : ∀ engine ∈ desk.board.engines.records,
      Engine.fields.decode engine.toJson = .ok engine := by
    intro engine member
    obtain ⟨key, found⟩ := Ledger.mem_records_iff.1 member
    exact engine.decode_toJson (storable.engines key engine found).2
  rw [serve_query (show Route.engines.query = .ok .engines from rfl) get path trivial]
  exact tells_json (Value.areWritable_map Engine.isWritable_toJson _)
    (Json.Decode.list_array read)

end Listings

/-- Whatever document a desk began with and whatever it was asked before: a request that is not
answered, or not with success, changes neither the board nor the document, and a request to get
something changes nothing at all. A request asks for an operation exactly when it denotes it, and
answering requests one after another leads where the operations that they denote lead in that order.
All jobs and all engines can be read then, in the order of the board. -/
theorem requests_served_as_denoted {settings : Settings} {disk : Disk} {ids : IdSupply}
    {desk : Desk} (opened : Desk.start settings disk ids = .ok desk) (turns : List Turn) :
    let reached := ((Session.opening desk).run turns).desk
    let bound := reached.settings.defaultMaxRetries
    (∀ (request : Request) (moment : Moment),
        (succeeded (serve request moment reached).1 = false →
          (serve request moment reached).2.board = reached.board
            ∧ (serve request moment reached).2.disk.document = reached.disk.document)
        ∧ (request.method = "GET" → (serve request moment reached).2 = reached))
      ∧ (∀ (request : Request) (operation : Operation),
        request.operation? bound = some operation ↔ request.Denotes bound operation)
      ∧ ∀ exchanges : List Exchange,
        let final := serveAll exchanges reached
        final = ((Session.opening reached).run (exchanges.filterMap (Exchange.turn? bound))).desk
          ∧ ∀ (request : Request) (moment : Moment), request.method = "GET" →
            (request.path = "/jobs" → Tells (serve request moment final).1
              (Json.Decode.list Job.fields.decode) final.board.jobs.records)
            ∧ (request.path = "/engines" → Tells (serve request moment final).1
              (Json.Decode.list Engine.fields.decode) final.board.engines.records) := by
  intro reached bound
  have kept : reached.Kept := (Session.kept_run (Desk.kept_of_start opened) turns).1
  refine ⟨?_, fun _ _ => Request.operation?_eq_some, ?_⟩
  · intro request moment
    refine ⟨?_, serve_get moment reached⟩
    intro failed
    have untouched := untouched_of_serve moment reached failed
    exact ⟨untouched.board, untouched.document⟩
  · intro exchanges final
    have run : final = ((Session.opening reached).run
        (exchanges.filterMap (Exchange.turn? bound))).desk :=
      serveAll_eq_run exchanges (Session.opening reached)
    have storable : final.board.Storable := by
      rw [run]
      exact (Session.kept_run kept _).1.storable
    refine ⟨run, ?_⟩
    intro request moment get
    exact ⟨fun path => tells_jobs storable get path moment,
      fun path => tells_engines storable get path moment⟩

/-- A request to submit a job, with `null` for its bound. -/
def unboundedSubmission : Request where
  method := "POST"
  target := "/jobs?urgent"
  contentType := some "application/json"
  body := "\x7b\"source_url\": \"in\", \"target_codec\": \"out\", \"job_size\": 0,
    \"max_retries\": null\x7d".toUTF8

/-- A request to assign a job, without a body. -/
def attempt : Request := ⟨"POST", "/assign", none, .empty⟩

/-- A submission, the same without a media type, a method that is not served, and an attempt. -/
def openingHour : List Exchange :=
  [⟨unboundedSubmission, .first⟩, ⟨{ unboundedSubmission with contentType := none }, .first⟩,
    ⟨{ attempt with method := "PUT" }, .first⟩, ⟨attempt, .first⟩]

theorem requests_served_as_denoted_openingHour :
    Desk.start .standard (Desk.initial .standard).disk (Desk.initial .standard).ids =
        .ok (.initial .standard)
      ∧ (serveAll openingHour (.initial .standard)).board.jobs.records.map
        (fun job => (job.sourceUrl, job.maxRetries)) = [("in", 3)]
      ∧ Tells (serve ⟨"GET", "/jobs#all", none, .empty⟩ .first
          (serveAll openingHour (.initial .standard))).1
        (Json.Decode.list Job.fields.decode)
        (serveAll openingHour (.initial .standard)).board.jobs.records := by
  have opened := Desk.start_initial .standard
  have idle : ((Session.opening (Desk.initial .standard)).run []).desk = .initial .standard := rfl
  obtain ⟨_, denotes, answered⟩ := requests_served_as_denoted opened []
  rw [idle] at denotes answered
  obtain ⟨reached, told⟩ := answered openingHour
  have body : unboundedSubmission.Carries submissionFields
      ⟨"in", "out", Binary64.zero false, none⟩ := by
    refine ⟨by decide +kernel, ?_⟩
    rw [unboundedSubmission, show Text.symbolsOfBytes (String.toUTF8 _) = _ from
      Text.symbolsOfBytes_toByteArray _, Text.symbols, show String.toList _ = _ from
      String.toList_ofList]
    decide +kernel
  have submits : unboundedSubmission.operation? 3 =
      some (.submit ⟨"in", "out", Binary64.zero false, 3⟩) :=
    (denotes _ _).2 (Request.denotes_submit ⟨rfl, by decide +kernel⟩ body 3)
  have unread :
      Request.operation? { unboundedSubmission with contentType := none } 3 = none := by
    decide +kernel
  have unserved : Request.operation? { attempt with method := "PUT" } 3 = none := by
    decide +kernel
  have attempts : attempt.operation? 3 = some .assign := by
    decide +kernel
  have turns : openingHour.filterMap (Exchange.turn? 3) =
      [.ask (.submit ⟨"in", "out", Binary64.zero false, 3⟩) .first, .ask .assign .first] := by
    simp only [openingHour, Exchange.turn?, List.filterMap_cons, List.filterMap_nil, submits,
      unread, unserved, attempts, Option.map_some, Option.map_none]
  have run : serveAll openingHour (.initial .standard) =
      ((Session.opening (.initial .standard)).run [.ask (.submit ⟨"in", "out", Binary64.zero false,
        3⟩) .first, .ask .assign .first]).desk := by
    rw [← turns]
    exact reached
  refine ⟨opened, ?_, (told ⟨"GET", "/jobs#all", none, .empty⟩ .first rfl).1 (by decide +kernel)⟩
  rw [run]
  decide +kernel

end JobDispatch.Http
