import JobDispatch.Ledger
import JobDispatch.Refusal
import JobDispatch.Text.Blank
import JobDispatch.Time.Instant
set_option autoImplicit false

namespace JobDispatch

open Time

/-- The text has something else than white space in it. -/
def requireText (field : TextField) (text : String) : Except Refusal Unit :=
  if Text.isBlankText text then .error (.input (.blank field)) else .ok ()

/-- The number is finite and not below zero. -/
def requireAmount (field : AmountField) (value : Binary64) : Except Refusal Unit :=
  if value.isNonNegative then .ok () else .error (.input (.notAnAmount field value))

structure JobRequest where
  sourceUrl : String
  targetCodec : String
  jobSize : Binary64
  maxRetries : UInt32
deriving DecidableEq, Repr

/-- Both texts are there and the size is an amount; the first fault is reported. -/
def JobRequest.check (request : JobRequest) : Except Refusal Unit := do
  requireText .sourceUrl request.sourceUrl
  requireText .targetCodec request.targetCodec
  requireAmount .jobSize request.jobSize

structure Job where
  id : Uuid
  sourceUrl : String
  targetCodec : String
  jobSize : Binary64
  status : JobStatus
  assignedEngine : Option String
  lastEngine : Option String
  outputUrl : Option String
  retries : UInt32
  maxRetries : UInt32
  errorMessage : Option String
  createdAt : Instant
  updatedAt : Instant
  assignedAt : Option Instant
deriving DecidableEq, Repr

/-- What a failure did to a job: it waits again, or it was given up. -/
inductive FailureOutcome where
  | requeued (retries maxRetries : UInt32)
  | failedPermanently (retries : UInt32) (errorMessage : String)
deriving DecidableEq, Repr

namespace Job

/-- A new job waits and has not failed yet. -/
def submitted (id : Uuid) (request : JobRequest) (now : Instant) : Job where
  id := id
  sourceUrl := request.sourceUrl
  targetCodec := request.targetCodec
  jobSize := request.jobSize
  status := .pending
  assignedEngine := none
  lastEngine := none
  outputUrl := none
  retries := 0
  maxRetries := request.maxRetries
  errorMessage := none
  createdAt := now
  updatedAt := now
  assignedAt := none

/-- The first rule that the record breaks. -/
def brokenRule? (job : Job) : Option JobRule :=
  let assigned := job.status == .assigned
  if job.assignedEngine.isSome != assigned then some .engineIffAssigned
  else if job.assignedAt.isSome != assigned then some .timeIffAssigned
  else if job.outputUrl.isSome != (job.status == .completed) then some .outputIffCompleted
  else if job.status ≠ .failedPermanently ∧ job.maxRetries < job.retries then
    some .retriesWithinBound
  else none

def check (job : Job) : Except Refusal Unit :=
  match job.brokenRule? with
  | some rule => .error (.input (.brokenRule job.id job.status rule))
  | none => .ok ()

def assign (engine : String) (now : Instant) (job : Job) : Job :=
  { job with
    status := .assigned
    assignedEngine := some engine
    lastEngine := some engine
    assignedAt := some now
    updatedAt := now }

/-- The job is done; the engine that did it stays on record as the last one. -/
def complete (outputUrl : String) (now : Instant) (job : Job) : Job :=
  { job with
    status := .completed
    assignedEngine := none
    assignedAt := none
    outputUrl := some outputUrl
    updatedAt := now }

/-- The reason that a job which is given up keeps. -/
def finalReason (attempts : UInt32) (reason : String) : String :=
  "Job failed permanently after " ++ String.ofList (Text.numeral attempts.toNat)
    ++ " attempts: " ++ reason

/-- One failure more, if the counter has room for it. -/
def nextRetries? (job : Job) : Option UInt32 :=
  if job.retries.toNat + 1 < UInt32.size then some (job.retries + 1) else none

/-- The job when its failures have come to `retries`. It waits again while these are within its
bound, and is given up by the failure that exceeds it. -/
def failed (retries : UInt32) (reason : String) (now : Instant) (job : Job) :
    FailureOutcome × Job :=
  let freed : Job :=
    { job with retries := retries, assignedEngine := none, assignedAt := none, updatedAt := now }
  if retries ≤ job.maxRetries then
    (.requeued retries job.maxRetries,
      { freed with status := .pending, errorMessage := some reason })
  else
    let message := finalReason retries reason
    (.failedPermanently retries message,
      { freed with status := .failedPermanently, errorMessage := some message })

/-- A failure counts only while the job is assigned, and uses up one retry. -/
def fail (reason : String) (now : Instant) (job : Job) : Except Setback (FailureOutcome × Job) :=
  if job.status = .assigned then
    match job.nextRetries? with
    | some retries => .ok (job.failed retries reason now)
    | none => .error (.broken .counterFull)
  else .error (.refused (.jobStatus job.id job.status .assigned))

end Job

structure JobCounts where
  pending : Nat
  assigned : Nat
  completed : Nat
  failedPermanently : Nat
deriving DecidableEq, Repr

/-- All jobs under their ids, oldest submission first. -/
abbrev JobLedger := Ledger Uuid Job

namespace JobLedger

def find (jobs : JobLedger) (id : Uuid) : Except Refusal Job :=
  match jobs.get? id with
  | some job => .ok job
  | none => .error (.unknownJob id)

/-- Files a new job under a fresh id. -/
def submit (jobs : JobLedger) (id : Uuid) (request : JobRequest) (now : Instant) :
    Except Refusal JobLedger := do
  request.check
  return jobs.put id (Job.submitted id request now)

/-- The oldest job that waits. -/
def firstPending (jobs : JobLedger) : Option Job :=
  jobs.records.find? fun job => job.status = .pending

def countOf (jobs : JobLedger) (status : JobStatus) : Nat :=
  jobs.records.countP fun job => job.status = status

def pendingCount (jobs : JobLedger) : Nat := countOf jobs .pending

def counts (jobs : JobLedger) : JobCounts :=
  ⟨countOf jobs .pending, countOf jobs .assigned, countOf jobs .completed,
    countOf jobs .failedPermanently⟩

/-- The jobs assigned since before a point in time. -/
def assignedBefore (jobs : JobLedger) (cutoff : Instant) : List Uuid :=
  (jobs.records.filter fun job =>
    decide (job.status = .assigned) && job.assignedAt.any fun time => time.before cutoff).map Job.id

/-- The jobs whose last engine this was, finished and waiting ones included. -/
def ofEngine (jobs : JobLedger) (engine : String) : List Job :=
  jobs.records.filter fun job => job.lastEngine = some engine

/-- A waiting job becomes assigned. -/
def assign (jobs : JobLedger) (id : Uuid) (engine : String) (now : Instant) :
    Except Refusal JobLedger := do
  let job ← find jobs id
  if job.status = .pending then return jobs.update id (Job.assign engine now)
  else .error (.jobStatus id job.status .pending)

/-- An assigned job becomes completed. The output is looked at before the state. -/
def complete (jobs : JobLedger) (id : Uuid) (outputUrl : String) (now : Instant) :
    Except Refusal JobLedger := do
  let job ← find jobs id
  requireText .outputUrl outputUrl
  if job.status = .assigned then return jobs.update id (Job.complete outputUrl now)
  else .error (.jobStatus id job.status .assigned)

/-- An assigned job fails. -/
def fail (jobs : JobLedger) (id : Uuid) (reason : String) (now : Instant) :
    Except Setback (FailureOutcome × JobLedger) := do
  let job ← find jobs id
  let (outcome, failed) ← job.fail reason now
  return (outcome, jobs.update id fun _ => failed)

end JobLedger

end JobDispatch
