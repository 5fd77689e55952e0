import JobDispatch.Pairing
set_option autoImplicit false

namespace JobDispatch

open Time

structure Board where
  jobs : JobLedger
  engines : EnginePool
deriving DecidableEq

/-- What an attempt to start the oldest waiting job came to. -/
inductive AssignmentOutcome where
  | assigned (job : Uuid) (engine : String)
  | noPendingJobs
  | noEligibleEngines (job : Uuid)
deriving DecidableEq, Repr

namespace AssignmentOutcome

/-- The job and the engine that were brought together, if any were. -/
def pair? : AssignmentOutcome → Option (Uuid × String)
  | assigned job engine => some (job, engine)
  | _ => none

def isAssigned (outcome : AssignmentOutcome) : Bool := outcome.pair?.isSome

end AssignmentOutcome

structure Statistics where
  jobsTotal : Nat
  enginesTotal : Nat
  jobs : JobCounts
  engines : EngineCounts
deriving DecidableEq, Repr

namespace Board

def empty : Board := ⟨Ledger.empty, Ledger.empty⟩

/-- The numbers of all records and of those in each state. -/
def statistics (board : Board) : Statistics :=
  ⟨board.jobs.size, board.engines.size, board.jobs.counts, board.engines.counts⟩

/-- Gives the oldest waiting job to an engine. Engines are judged by the time `judged`, and what
changes is stamped with `now`. The first part is what came of it; the board is the one after the
last step that went through. -/
def assignNext (rule : Pairing) (judged now : Instant) (board : Board) :
    Except Refusal AssignmentOutcome × Board :=
  match board.jobs.firstPending with
  | none => (.ok .noPendingJobs, board)
  | some job =>
    match rule.choose job.jobSize (rule.candidates board.engines judged) with
    | none => (.ok (.noEligibleEngines job.id), board)
    | some engine =>
      match board.jobs.assign job.id engine.id now with
      | .error refusal => (.error refusal, board)
      | .ok jobs =>
        match board.engines.bind engine.id job.id with
        | .error refusal => (.error refusal, ⟨jobs, board.engines⟩)
        | .ok engines => (.ok (.assigned job.id engine.id), ⟨jobs, engines⟩)

/-- An assigned job is done, and the engine that held it is free. -/
def complete (id : Uuid) (outputUrl : String) (now : Instant) (board : Board) :
    Except Refusal Board := do
  let job ← board.jobs.find id
  let jobs ← board.jobs.complete id outputUrl now
  return ⟨jobs, board.engines.releaseFrom id job.assignedEngine⟩

/-- An assigned job fails, and the engine that held it is free. -/
def fail (id : Uuid) (reason : String) (now : Instant) (board : Board) :
    Except Setback (FailureOutcome × Board) := do
  let job ← board.jobs.find id
  let (outcome, jobs) ← board.jobs.fail id reason now
  return (outcome, ⟨jobs, board.engines.releaseFrom id job.assignedEngine⟩)

/-- Several jobs fail one after another for the same reason. -/
def failAll (reason : String) (now : Instant) :
    List Uuid → Board → Except Setback (List (Uuid × FailureOutcome) × Board)
  | [], board => .ok ([], board)
  | id :: ids, board => do
    let (outcome, board) ← fail id reason now board
    let (outcomes, board) ← failAll reason now ids board
    return ((id, outcome) :: outcomes, board)

end Board

end JobDispatch
