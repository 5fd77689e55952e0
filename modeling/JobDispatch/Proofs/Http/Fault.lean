import JobDispatch.Proofs.Board.Fault
import JobDispatch.Proofs.Desk.Commuting
import JobDispatch.Proofs.Http.Service
set_option autoImplicit false

namespace JobDispatch

namespace Operation

variable {desk : Desk} {moment : Moment} {operation : Operation}

def acceptedStatus : Operation → Nat
  | submit _ => 201
  | _ => 200

theorem acceptedStatus_lt (operation : Operation) : operation.acceptedStatus < 300 := by
  cases operation <;> simp [acceptedStatus]

/-- Where saves go through, a caller is told what the change of the board comes to. -/
theorem perform_fst (saves : desk.CanSave (moment.mishaps 0)) (operation : Operation) :
    (operation.perform moment desk).1 = (operation.transition desk.settings
      (desk.ids.nth desk.ids.issued) moment.now desk.board).map Prod.fst := by
  cases accepted : operation.transition desk.settings (desk.ids.nth desk.ids.issued) moment.now
      desk.board with
  | error setback =>
    have attempted : operation.attempt desk.settings (desk.ids.nth desk.ids.issued) moment.now
        desk.board = (.error setback, desk.board) := by
      simp only [attempt, accepted]
    obtain ⟨after, performed, _⟩ := perform_of_attempt saves attempted
    rw [performed]
    rfl
  | ok pair =>
    obtain ⟨answer, staged⟩ := pair
    have attempted : operation.attempt desk.settings (desk.ids.nth desk.ids.issued) moment.now
        desk.board = (.ok answer, staged) := by
      simp only [attempt, accepted]
    obtain ⟨after, performed, _⟩ := perform_of_attempt saves attempted
    rw [performed]
    rfl

/-- Where saves go through, what is asked is refused for its faults and for nothing else, and breaks
down over a worn job only. -/
theorem perform_eq_error_iff_fault (keyed : desk.board.Keyed)
    (saves : desk.CanSave (moment.mishaps 0)) (input : operation.takesInput = true)
    {setback : Setback} : (operation.perform moment desk).1 = .error setback ↔
      (∃ refusal, setback = .refused refusal ∧ operation.Fault desk.board refusal)
        ∨ setback = .broken .counterFull ∧ operation.WearsOut desk.board := by
  rw [perform_fst saves, map_eq_error, transition_eq_error_iff_fault keyed input]

/-- What has no fault is carried out, unless it breaks down. -/
theorem perform_eq_ok_iff_fault (keyed : desk.board.Keyed)
    (saves : desk.CanSave (moment.mishaps 0)) (input : operation.takesInput = true) :
    (∃ answer, (operation.perform moment desk).1 = .ok answer) ↔
      ¬operation.WearsOut desk.board ∧ ∀ refusal, ¬operation.Fault desk.board refusal := by
  constructor
  · rintro ⟨answer, told⟩
    constructor
    · intro worn
      have broken := (perform_eq_error_iff_fault keyed saves input).2 (.inr ⟨rfl, worn⟩)
      rw [told] at broken
      cases broken
    · intro refusal faulty
      have refused :=
        (perform_eq_error_iff_fault keyed saves input).2 (.inl ⟨refusal, rfl, faulty⟩)
      rw [told] at refused
      cases refused
  · rintro ⟨sound, faultless⟩
    cases told : (operation.perform moment desk).1 with
    | ok answer => exact ⟨answer, rfl⟩
    | error setback =>
      rcases (perform_eq_error_iff_fault keyed saves input).1 told with
        ⟨refusal, _, faulty⟩ | ⟨_, worn⟩
      · exact absurd faulty (faultless refusal)
      · exact absurd worn sound

end Operation

namespace Http

def HasStatus (answer : Except Breakdown Response) (status : Nat) : Prop :=
  ∃ response, answer = .ok response ∧ response.status = status

section Orders

variable {α : Type} {render : α → Response} {answer : α → Answer}

/-- The response to an operation reports its refusal, or has the status of its success; without
either there is none. -/
theorem respond_told {status : Nat} (renders : ∀ a, (render a).status = status)
    (result : Except Setback α × Desk) :
    (∀ refusal, (Operation.answering answer result).1 = .error (.refused refusal) →
        (respond render result).1 = .ok (.refused refusal))
      ∧ (∀ breakdown, (Operation.answering answer result).1 = .error (.broken breakdown) →
        (respond render result).1 = .error breakdown)
      ∧ ∀ told, (Operation.answering answer result).1 = .ok told →
        HasStatus (respond render result).1 status := by
  obtain ⟨outcome, desk⟩ := result
  cases outcome with
  | error setback =>
    refine ⟨?_, ?_, ?_⟩
    · intro refusal told
      cases told
      rfl
    · intro breakdown told
      cases told
      rfl
    · intro told impossible
      cases impossible
  | ok a =>
    refine ⟨?_, ?_, fun _ _ => ⟨_, rfl, renders a⟩⟩
    · intro refusal impossible
      cases impossible
    · intro breakdown impossible
      cases impossible

theorem Order.perform_told (order : Order) (moment : Moment) (desk : Desk) :
    let operation := order.operation desk.settings.defaultMaxRetries
    (∀ refusal, (operation.perform moment desk).1 = .error (.refused refusal) →
        (order.perform moment desk).1 = .ok (.refused refusal))
      ∧ (∀ breakdown, (operation.perform moment desk).1 = .error (.broken breakdown) →
        (order.perform moment desk).1 = .error breakdown)
      ∧ ∀ told, (operation.perform moment desk).1 = .ok told →
        HasStatus (order.perform moment desk).1 operation.acceptedStatus := by
  cases order
  all_goals
    refine respond_told ?_ _
    intro _
    rfl

end Orders

/-- A request that denotes an operation is answered as a whole, body and all. -/
theorem serve_of_denotes {request : Request} {operation : Operation} {desk : Desk}
    (denoted : request.Denotes desk.settings.defaultMaxRetries operation) (moment : Moment) :
    ∃ order : Order, order.operation desk.settings.defaultMaxRetries = operation
      ∧ serve request moment desk = order.perform moment desk := by
  obtain ⟨route, order, posted, named, ordered, same⟩ := Request.order_of_denotes denoted
  have meant := Request.meaning_eq_order.2 ⟨route, posted, named, ordered⟩
  have body : ¬request.method = "HEAD" := by
    rw [posted.method]
    decide
  refine ⟨order, same, ?_⟩
  rw [serve, meant]
  dsimp only [serveMeaning]
  simp only [if_neg body]
  cases order.perform moment desk with
  | mk answer after => cases answer <;> rfl

section Status

variable {operation : Operation} {board : Board} {answer : Except Breakdown Response}

/-- The answer tells what came of an operation at a board: its fault or its success. There is none
when it broke down. -/
structure Reports (answer : Except Breakdown Response) (operation : Operation) (board : Board) :
    Prop where
  refused : ∀ refusal, operation.Fault board refusal → answer = .ok (.refused refusal)
  broken : operation.WearsOut board → answer = .error .counterFull
  accepted : ¬operation.WearsOut board → (∀ refusal, ¬operation.Fault board refusal) →
    HasStatus answer operation.acceptedStatus

/-- A status that tells no success is that of a fault. -/
theorem Reports.hasStatus_iff (reports : Reports answer operation board) {status : Nat}
    (unsuccessful : 300 ≤ status) : HasStatus answer status ↔
      ∃ refusal, operation.Fault board refusal ∧ refusal.httpStatus = status := by
  constructor
  · rintro ⟨response, told, same⟩
    by_contra other
    have faultless (refusal : Refusal) (faulty : operation.Fault board refusal) : False := by
      cases told.symm.trans (reports.refused refusal faulty)
      exact other ⟨refusal, faulty, same⟩
    have sound (worn : operation.WearsOut board) : False := by
      cases told.symm.trans (reports.broken worn)
    obtain ⟨accepted, went, success⟩ := reports.accepted sound faultless
    cases told.symm.trans went
    have successful := operation.acceptedStatus_lt
    omega
  · rintro ⟨refusal, faulty, status⟩
    exact ⟨_, reports.refused refusal faulty, status⟩

/-- A success is told exactly when there is no fault and nothing broke down. -/
theorem Reports.accepted_iff (reports : Reports answer operation board) :
    HasStatus answer operation.acceptedStatus ↔
      ¬operation.WearsOut board ∧ ∀ refusal, ¬operation.Fault board refusal := by
  constructor
  · rintro ⟨response, told, success⟩
    constructor
    · intro worn
      cases told.symm.trans (reports.broken worn)
    · intro refusal faulty
      cases told.symm.trans (reports.refused refusal faulty)
      have successful := operation.acceptedStatus_lt
      have unsuccessful : 300 ≤ (Response.refused refusal).status := by
        cases refusal <;> simp [Response.refused, Response.json, Refusal.httpStatus]
      omega
  · rintro ⟨sound, faultless⟩
    exact reports.accepted sound faultless

theorem Reports.unanswered_iff (reports : Reports answer operation board) :
    (∃ breakdown, answer = .error breakdown) ↔ operation.WearsOut board := by
  constructor
  · rintro ⟨breakdown, unanswered⟩
    by_contra sound
    by_cases faultless : ∀ refusal, ¬operation.Fault board refusal
    · obtain ⟨response, told, _⟩ := reports.accepted sound faultless
      cases told.symm.trans unanswered
    · simp only [not_forall, not_not] at faultless
      obtain ⟨refusal, faulty⟩ := faultless
      cases (reports.refused refusal faulty).symm.trans unanswered
  · intro worn
    exact ⟨_, reports.broken worn⟩

end Status

/-- Where saves go through, a request that denotes an operation is told its fault or its success. -/
theorem reports_of_denotes {request : Request} {operation : Operation} {desk : Desk}
    {moment : Moment} (keyed : desk.board.Keyed) (saves : desk.CanSave (moment.mishaps 0))
    (denoted : request.Denotes desk.settings.defaultMaxRetries operation)
    (input : operation.takesInput = true) :
    Reports (serve request moment desk).1 operation desk.board := by
  obtain ⟨order, same, served⟩ := serve_of_denotes denoted moment
  obtain ⟨refused, broken, accepted⟩ := order.perform_told moment desk
  rw [same] at refused broken accepted
  rw [served]
  constructor
  · intro refusal faulty
    exact refused refusal
      ((Operation.perform_eq_error_iff_fault keyed saves input).2 (.inl ⟨refusal, rfl, faulty⟩))
  · intro worn
    exact broken _ ((Operation.perform_eq_error_iff_fault keyed saves input).2 (.inr ⟨rfl, worn⟩))
  · intro sound faultless
    obtain ⟨answer, told⟩ :=
      (Operation.perform_eq_ok_iff_fault keyed saves input).2 ⟨sound, faultless⟩
    exact accepted answer told

/-- In every state of a run, whatever document it began with, and where saves go through: what is
asked is refused exactly for its faults and else carried out, save that the failure of a worn job
breaks down; and a report on a job is told the same at every desk with the same record of that job,
whatever engines there are. Over HTTP a fault is reported as a whole; its status is 404 when the job
or the engine is unknown, 400 when the input is out of order, and 409 when the job is in another
state, and without a fault it is 201 for a submission and 200 for everything else. Only what breaks
down is not answered. -/
theorem answers_by_fault {settings : Settings} {disk : Disk} {ids : IdSupply} {desk : Desk}
    (opened : Desk.start settings disk ids = .ok desk) (turns : List Turn) (moment : Moment)
    (saves : ((Session.opening desk).run turns).desk.CanSave (moment.mishaps 0)) :
    let final := ((Session.opening desk).run turns).desk
    (∀ operation : Operation, operation.takesInput = true →
        let told := (operation.perform moment final).1
        (∀ refusal, told = .error (.refused refusal) ↔ operation.Fault final.board refusal)
          ∧ ((∃ breakdown, told = .error (.broken breakdown)) ↔ operation.WearsOut final.board)
          ∧ ((∃ answer, told = .ok answer) ↔
            ¬operation.WearsOut final.board ∧ ∀ refusal, ¬operation.Fault final.board refusal))
      ∧ (∀ (operation : Operation) (id : Uuid), operation.reportedJob? = some id →
        ∀ other : Desk, other.CanSave (moment.mishaps 0) →
          other.board.jobs.get? id = final.board.jobs.get? id →
            (operation.perform moment other).1 = (operation.perform moment final).1)
      ∧ ∀ (request : Request) (operation : Operation),
        request.Denotes final.settings.defaultMaxRetries operation →
        operation.takesInput = true →
          let answer := (serve request moment final).1
          (∀ refusal, operation.Fault final.board refusal → answer = .ok (.refused refusal))
            ∧ (HasStatus answer 404 ↔ ∃ refusal, operation.Fault final.board refusal
              ∧ ((∃ id, refusal = .unknownJob id) ∨ ∃ name, refusal = .unknownEngine name))
            ∧ (HasStatus answer 400 ↔ ∃ refusal, operation.Fault final.board refusal
              ∧ ∃ fault, refusal = .input fault)
            ∧ (HasStatus answer 409 ↔ ∃ refusal, operation.Fault final.board refusal
              ∧ ∃ subject actual expected, refusal = .wrongState subject actual expected)
            ∧ (HasStatus answer operation.acceptedStatus ↔
              ¬operation.WearsOut final.board ∧ ∀ refusal, ¬operation.Fault final.board refusal)
            ∧ ((∃ breakdown, answer = .error breakdown) ↔ operation.WearsOut final.board) := by
  intro final
  have kept : final.Kept := (Session.kept_run (Desk.kept_of_start opened) turns).1
  have keyed := kept.storable.keyed
  refine ⟨?_, ?_, ?_⟩
  · intro operation input told
    refine ⟨fun refusal => ?_, ?_, Operation.perform_eq_ok_iff_fault keyed saves input⟩
    · rw [Operation.perform_eq_error_iff_fault keyed saves input]
      simp
    · simp only [told, Operation.perform_eq_error_iff_fault keyed saves input]
      simp
  · intro operation id about other otherSaves same
    obtain ⟨told, _, _, acts⟩ :=
      Operation.perform_report about moment (final.board.jobs.get? id)
    exact (acts other otherSaves same).1.trans (acts final saves rfl).1.symm
  · intro request operation denoted input answer
    have reports : Reports answer operation final.board :=
      reports_of_denotes keyed saves denoted input
    refine ⟨reports.refused, ?_, ?_, ?_, reports.accepted_iff, reports.unanswered_iff⟩
    all_goals
      rw [reports.hasStatus_iff (by decide)]
      refine exists_congr fun refusal => and_congr_right fun _ => ?_
      cases refusal <;> simp [Refusal.httpStatus]

/-- A request to report the waiting job of the tangled board as failed. -/
def idleFailure : Request where
  method := "POST"
  target := "/jobs/E0000000000000000000000000000000/fail"
  contentType := some "application/json"
  body := "\x7b\"error_message\": \"broken\"\x7d".toUTF8

/-- On the tangled board an unknown job counts before a blank output, a blank output before the
state, and a job whose engine is not on file is reported as done. The job that waits cannot fail. -/
theorem answers_by_fault_tangled :
    Desk.start .standard Desk.tangled.disk Desk.tangled.ids = .ok .tangled
      ∧ Desk.tangled.CanSave (Moment.first.mishaps 0)
      ∧ ((Operation.complete (Uuid.ofNat 99) " ").perform .first .tangled).1 =
        .error (.refused (.unknownJob (Uuid.ofNat 99)))
      ∧ ((Operation.complete (Uuid.ofNat 14) " ").perform .first .tangled).1 =
        .error (.refused (.input (.blank .outputUrl)))
      ∧ (∃ answer, ((Operation.complete (Uuid.ofNat 13) "done").perform .first .tangled).1 =
        .ok answer)
      ∧ HasStatus (serve idleFailure .first .tangled).1 409 := by
  have opened := Desk.start_tangled
  have saves : Desk.tangled.CanSave (Moment.first.mishaps 0) :=
    Desk.canSave_onFile .standard .tangled
  have idle : ((Session.opening Desk.tangled).run []).desk = .tangled := rfl
  obtain ⟨told, -, served⟩ := answers_by_fault opened [] .first saves
  rw [idle] at told served
  have waiting : ∃ job, Desk.tangled.board.jobs.get? (Uuid.ofNat 14) = some job
      ∧ job.status = .pending := by
    decide +kernel
  obtain ⟨job, known, pending⟩ := waiting
  refine ⟨opened, saves, ?_, ?_, ?_, ?_⟩
  · exact ((told _ rfl).1 _).2 (.unknownCompleted (by decide +kernel))
  · exact ((told _ rfl).1 _).2 (.noOutput known (by decide +kernel))
  · refine (told (.complete (Uuid.ofNat 13) "done") rfl).2.2.2 ⟨not_false, fun refusal faulty => ?_⟩
    have held : (Desk.tangled.board.jobs.get? (Uuid.ofNat 13)).map Job.status = some .assigned := by
      decide +kernel
    cases faulty with
    | unknownCompleted unknown =>
      rw [unknown] at held
      cases held
    | noOutput _ blank =>
      revert blank
      decide +kernel
    | completedIdly found _ other =>
      rw [found] at held
      exact other (Option.some.inj held)
  · have body : idleFailure.Carries reasonFields "broken" := by
      refine ⟨by decide +kernel, ?_⟩
      rw [idleFailure, show Text.symbolsOfBytes (String.toUTF8 _) = _ from
        Text.symbolsOfBytes_toByteArray _, Text.symbols, show String.toList _ = _ from
        String.toList_ofList]
      decide +kernel
    have named : IsJobSegment "E0000000000000000000000000000000".toList (Uuid.ofNat 14) :=
      ⟨by decide +kernel, by decide +kernel⟩
    have denoted : idleFailure.Denotes 3 (.fail (Uuid.ofNat 14) "broken") :=
      .fail ⟨rfl, by decide +kernel⟩ named body
    obtain ⟨-, -, -, conflict, -, -⟩ := served idleFailure _ denoted rfl
    exact conflict.2 ⟨_, .failedIdly known (by rw [pending]; decide), _, _, _, rfl⟩

end Http

end JobDispatch
