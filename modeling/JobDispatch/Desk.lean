import JobDispatch.Disk
import JobDispatch.Settings
set_option autoImplicit false

/- The dispatch desk: a board that is kept on disk. An operation works on a staged copy of the
board, saves it, and only then goes on with it, so that a save that fails leaves everything as it
was. -/
namespace JobDispatch

open Time

/-- The identifiers for new jobs in the order in which they are given out. -/
structure IdSupply where
  nth : Nat → Uuid
  issued : Nat

/-- What an operation is told from outside: the time, and which calls of its saves fail. -/
structure Moment where
  now : Instant
  mishaps : Nat → Mishaps

namespace Moment

def calm (now : Instant) : Moment := ⟨now, fun _ => Mishaps.none⟩

def afterSaves (moment : Moment) (saves : Nat) : Moment :=
  ⟨moment.now, fun n => moment.mishaps (saves + n)⟩

end Moment

/-- A desk with its settings. A wake-up is kept until the assignment loop takes it; there is never
more than one. -/
structure Desk where
  settings : Settings
  board : Board
  wakeUp : Bool
  disk : Disk
  ids : IdSupply

/-- An operation on the desk: what it answers, and the desk afterwards. -/
abbrev DeskOp (α : Type) := Moment → Desk → Except Setback α × Desk

namespace Desk

/-- A desk over the board that the document holds, or an empty one without a document. -/
def start (settings : Settings) (disk : Disk) (ids : IdSupply) : Except Refusal Desk := do
  return ⟨settings, (← disk.load).getD Board.empty, false, disk, ids⟩

/-- Starts anew from the document; a desk that cannot start leaves the old one at work. -/
def restart (settings : Settings) (desk : Desk) : Except Refusal Unit × Desk :=
  match start settings desk.disk desk.ids with
  | .ok fresh => (.ok (), fresh)
  | .error refusal => (.error refusal, desk)

/-- Saves a staged board and goes on with it. -/
def commit (staged : Board) (mishaps : Mishaps) (desk : Desk) : Except Refusal Unit × Desk :=
  match desk.disk.save staged.documentBytes mishaps with
  | (disk, .ok ()) => (.ok (), { desk with board := staged, disk := disk })
  | (disk, .error refusal) => (.error refusal, { desk with disk := disk })

/-- Leaves a wake-up for the assignment loop. -/
def signal (desk : Desk) : Desk := { desk with wakeUp := true }

def takeWakeUp (desk : Desk) : Bool × Desk := (desk.wakeUp, { desk with wakeUp := false })

/-- Changes the board and saves it. The loop is woken when the answer may make an assignment
possible. -/
def mutate {α : Type} (change : Instant → Board → Except Setback (α × Board)) (wakes : α → Bool) :
    DeskOp α := fun moment desk =>
  match change moment.now desk.board with
  | .error setback => (.error setback, desk)
  | .ok (answer, staged) =>
    match desk.commit staged (moment.mishaps 0) with
    | (.error refusal, desk) => (.error (.refused refusal), desk)
    | (.ok (), desk) => (.ok answer, if wakes answer then desk.signal else desk)

/-- Takes in a new job. It uses up an identifier as soon as the request is in order. -/
def submit (request : JobRequest) : DeskOp Uuid := fun moment desk =>
  match request.check with
  | .error refusal => (.error (.refused refusal), desk)
  | .ok () =>
    let id := desk.ids.nth desk.ids.issued
    let file := fun now (board : Board) => do
      return (id, { board with jobs := ← board.jobs.submit id request now })
    mutate file (fun _ => true) moment { desk with ids.issued := desk.ids.issued + 1 }

/-- Takes in a report of an engine; only an engine that is idle then can make an assignment
possible. -/
def heartbeat (report : Heartbeat) : DeskOp EngineStatus :=
  mutate (fun now board => do
    let engines ← board.engines.report report now
    let engine ← EnginePool.find engines report.engineId
    return (engine.status, { board with engines := engines })) fun status => status == .idle

def benchmark (engine : String) (time : Binary64) : DeskOp Unit :=
  mutate (fun _ board => do
    return ((), { board with engines := ← board.engines.benchmark engine time })) fun _ => true

def complete (job : Uuid) (outputUrl : String) : DeskOp Unit :=
  mutate (fun now board => do return ((), ← board.complete job outputUrl now)) fun _ => true

def fail (job : Uuid) (reason : String) : DeskOp FailureOutcome :=
  mutate (fun now board => board.fail job reason now) fun _ => true

/-- One attempt to start the oldest waiting job. Only an assignment is saved. -/
def assign : DeskOp AssignmentOutcome := fun moment desk =>
  match desk.board.assignNext desk.settings.pairing moment.now moment.now with
  | (.error refusal, _) => (.error (.refused refusal), desk)
  | (.ok outcome, staged) =>
    if outcome.isAssigned then
      match desk.commit staged (moment.mishaps 0) with
      | (.error refusal, desk) => (.error (.refused refusal), desk)
      | (.ok (), desk) => (.ok outcome, desk)
    else (.ok outcome, desk)

/-- At most `limit` attempts, until one assigns nothing; the pairs that were brought together. -/
def assignUpTo : Nat → DeskOp (List (Uuid × String))
  | 0, _, desk => (.ok [], desk)
  | limit + 1, moment, desk =>
    match desk.assign moment with
    | (.error setback, desk) => (.error setback, desk)
    | (.ok outcome, desk) =>
      match outcome.pair? with
      | none => (.ok [], desk)
      | some pair =>
        match assignUpTo limit (moment.afterSaves 1) desk with
        | (.error setback, desk) => (.error setback, desk)
        | (.ok pairs, desk) => (.ok (pair :: pairs), desk)

/-- Attempts until one assigns nothing. Each assignment leaves one job less to wait, so that the
number of waiting jobs bounds the attempts that assign something. -/
def assignAll : DeskOp (List (Uuid × String)) := fun moment desk =>
  desk.assignUpTo desk.board.jobs.pendingCount moment

def timeoutReason : String := "assignment timed out"

/-- Fails the given jobs in one save. Without any nothing is saved. -/
def failTimedOut (ids : List Uuid) : DeskOp (List (Uuid × FailureOutcome)) := fun moment desk =>
  if ids.isEmpty then (.ok [], desk)
  else mutate (fun now board => board.failAll timeoutReason now ids) (fun _ => true) moment desk

/-- Fails every job that has been assigned for longer than the job timeout. -/
def reclaim : DeskOp (List (Uuid × FailureOutcome)) := fun moment desk =>
  match desk.settings.jobTimeout with
  | none => (.ok [], desk)
  | some timeout =>
    match moment.now.minus? timeout with
    | none => (.error (.broken .outOfCalendar), desk)
    | some cutoff => desk.failTimedOut (desk.board.jobs.assignedBefore cutoff) moment

def job (desk : Desk) (id : Uuid) : Except Refusal Job := desk.board.jobs.find id

/-- The jobs in the order in which they were submitted. -/
def jobs (desk : Desk) : List Job := desk.board.jobs.records

/-- The engines in the order in which they first reported. -/
def engines (desk : Desk) : List Engine := desk.board.engines.records

/-- The jobs whose last engine this was; the engine must be known. -/
def engineJobs (desk : Desk) (engine : String) : Except Refusal (List Job) := do
  let _ ← desk.board.engines.find engine
  return desk.board.jobs.ofEngine engine

/-- The engines whose last heartbeat is at least the engine timeout ago. -/
def staleEngines (desk : Desk) (now : Instant) : List String :=
  match desk.settings.pairing.timeout with
  | none => []
  | some timeout => (desk.board.engines.stale now timeout).map Engine.id

end Desk

end JobDispatch
