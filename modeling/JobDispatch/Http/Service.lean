import JobDispatch.Http.Request
set_option autoImplicit false

namespace JobDispatch.Http

open Json (Value)

/-- An answer: its status code, and its body if that is JSON. -/
structure Response where
  status : Nat
  body : Option Value

namespace Response

def empty (status : Nat) : Response := ⟨status, none⟩

def json (status : Nat) (body : Value) : Response := ⟨status, some body⟩

def notice (text : String) : Response := json 200 (.record [("message", .text text)])

def refused (refusal : Refusal) : Response :=
  json refusal.httpStatus (.record [("error", .text refusal.message)])

def of {α : Type} (render : α → Response) : Except Refusal α → Response
  | .ok a => render a
  | .error refusal => refused refusal

/-- The answer to something that may have been refused, unless it broke down. -/
def unlessBroken {α : Type} (render : α → Response) : Except Setback α → Except Breakdown Response
  | .ok a => .ok (render a)
  | .error (.refused refusal) => .ok (refused refusal)
  | .error (.broken breakdown) => .error breakdown

end Response

def Query.answer (desk : Desk) : Query → Response
  | jobs => .json 200 (.array (desk.jobs.map Job.toJson))
  | job id => .of (fun job => .json 200 job.toJson) (desk.job id)
  | engines => .json 200 (.array (desk.engines.map Engine.toJson))
  | engineJobs engine =>
    .of (fun jobs => .json 200 (.array (jobs.map Job.toJson))) (desk.engineJobs engine)
  | statistics => .json 200 desk.board.statistics.toJson

/-- What an operation answers and the desk afterwards, as a response. -/
def respond {α : Type} (render : α → Response) (result : Except Setback α × Desk) :
    Except Breakdown Response × Desk :=
  (Response.unlessBroken render result.1, result.2)

def Order.perform (order : Order) (moment : Moment) (desk : Desk) :
    Except Breakdown Response × Desk :=
  match order with
  | submit submission =>
    respond (fun id => .json 201 (.record [("job_id", id.toJson)]))
      (Desk.submit (submission.request desk.settings.defaultMaxRetries) moment desk)
  | complete job outputUrl =>
    respond (fun _ => .notice ("Job " ++ job.text ++ " marked as completed"))
      (Desk.complete job outputUrl moment desk)
  | fail job reason =>
    respond (fun outcome => .json 200 outcome.toJson) (Desk.fail job reason moment desk)
  | heartbeat report =>
    respond (fun _ => .notice ("Heartbeat received from engine " ++ report.engineId))
      (Desk.heartbeat report moment desk)
  | benchmark engine time =>
    respond (fun _ => .notice ("Benchmark result received from engine " ++ engine))
      (Desk.benchmark engine time moment desk)
  | assign => respond (fun outcome => .json 200 outcome.toJson) (Desk.assign moment desk)

def serveMeaning (meaning : Except Rejection Meaning) (moment : Moment) (desk : Desk) :
    Except Breakdown Response × Desk :=
  match meaning with
  | .error rejection => (.ok (.empty rejection.status), desk)
  | .ok .preflight => (.ok (.empty 200), desk)
  | .ok (.query query) => (.ok (query.answer desk), desk)
  | .ok (.order order) => order.perform moment desk

/-- Answers a request. The answer to the method `HEAD` has no body. -/
def serve (request : Request) (moment : Moment) (desk : Desk) : Except Breakdown Response × Desk :=
  let (answer, desk) := serveMeaning request.meaning moment desk
  (answer.map fun response =>
    if request.method = "HEAD" then .empty response.status else response, desk)

end JobDispatch.Http
