import JobDispatch.Desk
import JobDispatch.Proofs.Board.History
set_option autoImplicit false

namespace JobDispatch

open Time Desk

/-- What can be asked of a desk in one step. -/
inductive Operation where
  | submit (request : JobRequest)
  | heartbeat (report : Heartbeat)
  | benchmark (engine : String) (time : Binary64)
  | complete (job : Uuid) (outputUrl : String)
  | fail (job : Uuid) (reason : String)
  | assign
  | reclaim
deriving DecidableEq, Repr

/-- What is answered when an operation is carried out. -/
inductive Answer where
  | submitted (job : Uuid)
  | reported (status : EngineStatus)
  | measured
  | completed
  | failed (outcome : FailureOutcome)
  | attempted (outcome : AssignmentOutcome)
  | reclaimed (outcomes : List (Uuid × FailureOutcome))
deriving DecidableEq, Repr

/-- The operation found nothing to do: no job waits, no engine can take one, or nothing has timed
out. -/
def Answer.isIdle : Answer → Bool
  | attempted outcome => !outcome.isAssigned
  | reclaimed outcomes => outcomes.isEmpty
  | _ => false

namespace Operation

def step {α : Type} (render : α → Answer) (change : Except Setback (α × Board)) :
    Except Setback (Answer × Board) :=
  change.map fun (a, board) => (render a, board)

/-- The answer and the board when the operation is carried out at a time. A job that is submitted
gets the given id. -/
def transition (settings : Settings) (id : Uuid) (now : Instant) (board : Board) :
    Operation → Except Setback (Answer × Board)
  | submit request => step (fun _ => .submitted id) do
    return ((), { board with jobs := ← board.jobs.submit id request now })
  | heartbeat report => step .reported do
    let engines ← board.engines.report report now
    let engine ← EnginePool.find engines report.engineId
    return (engine.status, { board with engines := engines })
  | benchmark engine time => step (fun _ => .measured) do
    return ((), { board with engines := ← board.engines.benchmark engine time })
  | complete job outputUrl => step (fun _ => .completed) do
    return ((), ← board.complete job outputUrl now)
  | fail job reason => step .failed (board.fail job reason now)
  | assign =>
    match board.assignNext settings.pairing now now with
    | (.ok outcome, staged) => .ok (.attempted outcome, staged)
    | (.error refusal, _) => .error (.refused refusal)
  | reclaim =>
    match settings.jobTimeout with
    | none => .ok (.reclaimed [], board)
    | some timeout =>
      match now.minus? timeout with
      | none => .error (.broken .outOfCalendar)
      | some cutoff =>
        step .reclaimed (board.failAll timeoutReason now (board.jobs.assignedBefore cutoff))

/-- What an operation comes to at a board: one that is not carried out leaves the board as it is. -/
def attempt (settings : Settings) (id : Uuid) (now : Instant) (operation : Operation)
    (board : Board) : Except Setback Answer × Board :=
  match operation.transition settings id now board with
  | .ok (answer, staged) => (.ok answer, staged)
  | .error setback => (.error setback, board)

def events : Operation → Answer → List Event
  | submit _, .submitted job => [.submitted job]
  | heartbeat report, .reported _ => [.reported report]
  | benchmark engine _, .measured => [.measured engine]
  | complete job _, .completed => [.completed job]
  | fail job _, .failed outcome => [.failed job outcome]
  | assign, .attempted (.assigned job engine) => [.bound job engine]
  | reclaim, .reclaimed outcomes => outcomes.map fun (job, outcome) => .failed job outcome
  | _, _ => []

theorem step_eq_ok {α : Type} {render : α → Answer} {change : Except Setback (α × Board)}
    {answer : Answer} {staged : Board} : step render change = .ok (answer, staged) ↔
      ∃ a, change = .ok (a, staged) ∧ render a = answer := by
  simp only [step, map_eq_ok, Prod.mk.injEq, Prod.exists]
  constructor
  · rintro ⟨a, board, changed, told, rfl⟩
    exact ⟨a, changed, told⟩
  · rintro ⟨a, changed, told⟩
    exact ⟨a, staged, changed, told, rfl⟩

theorem step_eq_error {α : Type} {render : α → Answer} {change : Except Setback (α × Board)}
    {setback : Setback} : step render change = .error setback ↔ change = .error setback :=
  map_eq_error

end Operation

def Log.at (now : Instant) (events : List Event) : Log := events.map fun event => (now, event)

/-- Each of several jobs gets its outcome, in their order. -/
theorem Board.jobs_of_failAll {reason : String} {now : Instant} {ids : List Uuid}
    {board after : Board} {outcomes : List (Uuid × FailureOutcome)}
    (accepted : board.failAll reason now ids = .ok (outcomes, after)) :
    outcomes.map Prod.fst = ids := by
  induction ids generalizing board outcomes with
  | nil =>
    cases accepted
    rfl
  | cons id ids ih =>
    obtain ⟨⟨outcome, middle⟩, failed, rest⟩ := bind_eq_ok.1 accepted
    obtain ⟨⟨later, last⟩, others, equal⟩ := bind_eq_ok.1 rest
    cases equal
    rw [List.map_cons, ih others]

/-- Each of several jobs fails in a step of its own. -/
theorem Board.history_of_failAll {reason : String} {now : Instant} {ids : List Uuid}
    {board after : Board} {outcomes : List (Uuid × FailureOutcome)}
    (accepted : board.failAll reason now ids = .ok (outcomes, after)) :
    History board (Log.at now (outcomes.map fun (job, outcome) => .failed job outcome)) after := by
  induction ids generalizing board outcomes with
  | nil =>
    cases accepted
    exact .start
  | cons id ids ih =>
    obtain ⟨⟨outcome, middle⟩, failed, rest⟩ := bind_eq_ok.1 accepted
    obtain ⟨⟨later, last⟩, others, equal⟩ := bind_eq_ok.1 rest
    cases equal
    exact (History.single (change_of_fail failed)).append (ih others)

namespace Operation

/-- An operation that is carried out at a board in order is a chain of steps with its events. -/
theorem history_of_transition {settings : Settings} {id : Uuid} {now : Instant}
    {board staged : Board} {operation : Operation} {answer : Answer} (storable : board.Storable)
    (accepted : operation.transition settings id now board = .ok (answer, staged)) :
    board.History (Log.at now (operation.events answer)) staged := by
  cases operation with
  | submit request =>
    rw [transition, step_eq_ok] at accepted
    obtain ⟨⟨⟩, change, told⟩ := accepted
    obtain ⟨jobs, filed, equal⟩ := bind_eq_ok.1 change
    cases equal
    subst told
    exact .single (Board.change_of_submit (Setback.lift_eq_ok.1 filed))
  | heartbeat report =>
    rw [transition, step_eq_ok] at accepted
    obtain ⟨status, change, told⟩ := accepted
    obtain ⟨engines, taken, rest⟩ := bind_eq_ok.1 change
    obtain ⟨engine, _, equal⟩ := bind_eq_ok.1 rest
    cases equal
    subst told
    exact .single (Board.change_of_report (Setback.lift_eq_ok.1 taken))
  | benchmark engine time =>
    rw [transition, step_eq_ok] at accepted
    obtain ⟨⟨⟩, change, told⟩ := accepted
    obtain ⟨engines, taken, equal⟩ := bind_eq_ok.1 change
    cases equal
    subst told
    exact .single (Board.change_of_benchmark (Setback.lift_eq_ok.1 taken))
  | complete job outputUrl =>
    rw [transition, step_eq_ok] at accepted
    obtain ⟨⟨⟩, change, told⟩ := accepted
    obtain ⟨after, completed, equal⟩ := bind_eq_ok.1 change
    cases equal
    subst told
    exact .single (Board.change_of_complete (Setback.lift_eq_ok.1 completed))
  | fail job reason =>
    rw [transition, step_eq_ok] at accepted
    obtain ⟨outcome, failed, told⟩ := accepted
    subst told
    exact .single (Board.change_of_fail failed)
  | assign =>
    simp only [transition] at accepted
    rcases Board.assignNext_spec storable settings.pairing now with
      ⟨_, attempt⟩ | ⟨job, _, attempt⟩ | ⟨job, engine, after, attempt, change⟩
    · rw [attempt] at accepted
      cases accepted
      exact .start
    · rw [attempt] at accepted
      cases accepted
      exact .start
    · rw [attempt] at accepted
      cases accepted
      exact .single change
  | reclaim =>
    simp only [transition] at accepted
    split at accepted
    · cases accepted
      exact .start
    · split at accepted
      · cases accepted
      · obtain ⟨outcomes, failed, told⟩ := step_eq_ok.1 accepted
        subst told
        exact Board.history_of_failAll failed

end Operation

end JobDispatch
