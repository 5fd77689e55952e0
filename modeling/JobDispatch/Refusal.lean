import JobDispatch.Uuid
import JobDispatch.Binary64.Shortest
set_option autoImplicit false

namespace JobDispatch

/-- Where a job stands: waiting, held by an engine, done, or given up. -/
inductive JobStatus where
  | pending
  | assigned
  | completed
  | failedPermanently
deriving DecidableEq, Repr

namespace JobStatus

def name : JobStatus → String
  | pending => "pending"
  | assigned => "assigned"
  | completed => "completed"
  | failedPermanently => "failed_permanently"

def byName : List (String × JobStatus) :=
  [pending, assigned, completed, failedPermanently].map fun status => (status.name, status)

/-- No operation changes a job in such a state. -/
def isTerminal (status : JobStatus) : Bool :=
  status == completed || status == failedPermanently

end JobStatus

/-- Whether an engine can take a job. -/
inductive EngineStatus where
  | idle
  | busy
deriving DecidableEq, Repr

namespace EngineStatus

def name : EngineStatus → String
  | idle => "idle"
  | busy => "busy"

def byName : List (String × EngineStatus) := [idle, busy].map fun status => (status.name, status)

end EngineStatus

/-- Texts that must not be blank. -/
inductive TextField where
  | sourceUrl
  | targetCodec
  | outputUrl
  | engineId
deriving DecidableEq, Repr

def TextField.name : TextField → String
  | sourceUrl => "source_url"
  | targetCodec => "target_codec"
  | outputUrl => "output_url"
  | engineId => "engine_id"

/-- Numbers that must be finite and not below zero. -/
inductive AmountField where
  | jobSize
  | storageCapacity
  | benchmarkTime
deriving DecidableEq, Repr

def AmountField.name : AmountField → String
  | jobSize => "job_size"
  | storageCapacity => "storage_capacity"
  | benchmarkTime => "benchmark_time"

/-- The rules that tie the fields of a job to its state. -/
inductive JobRule where
  | engineIffAssigned
  | timeIffAssigned
  | outputIffCompleted
  | retriesWithinBound
deriving DecidableEq, Repr

def JobRule.text : JobRule → String
  | engineIffAssigned => "assigned_engine must be set iff status is assigned"
  | timeIffAssigned => "assigned_at must be set iff status is assigned"
  | outputIffCompleted => "output_url must be set iff status is completed"
  | retriesWithinBound => "retries exceed max_retries"

inductive InputFault where
  | blank (field : TextField)
  | notAnAmount (field : AmountField) (value : Binary64)
  | brokenRule (job : Uuid) (status : JobStatus) (rule : JobRule)
  | misfiledJob (key id : Uuid)
  | misfiledEngine (key id : String)
  | other (text : String)
deriving DecidableEq, Repr

def InputFault.text : InputFault → String
  | blank field => field.name ++ " must not be empty"
  | notAnAmount field value =>
    field.name ++ " must be a non-negative number, got " ++ value.plainText
  | brokenRule job status rule => "job " ++ job.text ++ " (" ++ status.name ++ "): " ++ rule.text
  | misfiledJob key id => "job stored under " ++ key.text ++ " has id " ++ id.text
  | misfiledEngine key id => "engine stored under " ++ key ++ " has id " ++ id
  | other text => text

inductive Subject where
  | job (id : Uuid)
  | engine (id : String)
deriving DecidableEq, Repr

def Subject.text : Subject → String
  | job id => "Job " ++ id.text
  | engine id => "Engine " ++ id

/-- Why an operation was refused. The states of a record are told by their names. -/
inductive Refusal where
  | unknownJob (id : Uuid)
  | unknownEngine (id : String)
  | wrongState (subject : Subject) (actual expected : String)
  | input (fault : InputFault)
  | storage (detail : String)
  | unreadable (detail : String)
deriving DecidableEq, Repr

namespace Refusal

/-- A job is not in the state that the operation needs. -/
def jobStatus (id : Uuid) (actual expected : JobStatus) : Refusal :=
  wrongState (.job id) actual.name expected.name

/-- An engine is not in the state that the operation needs. -/
def engineStatus (id : String) (actual expected : EngineStatus) : Refusal :=
  wrongState (.engine id) actual.name expected.name

def message : Refusal → String
  | unknownJob id => "Job not found: " ++ id.text
  | unknownEngine id => "Engine not found: " ++ id
  | wrongState subject actual expected =>
    subject.text ++ " is " ++ actual ++ ", expected " ++ expected
  | input fault => "Invalid input: " ++ fault.text
  | storage detail => "Persistence error: " ++ detail
  | unreadable detail => "Serialization error: " ++ detail

def isNotFound : Refusal → Bool
  | unknownJob _ => true
  | unknownEngine _ => true
  | _ => false

def httpStatus : Refusal → Nat
  | unknownJob _ => 404
  | unknownEngine _ => 404
  | wrongState .. => 409
  | input _ => 400
  | storage _ => 500
  | unreadable _ => 500

end Refusal

/-- What work breaks down over: a number that is outside of its range. -/
inductive Breakdown where
  | outOfCalendar
  | counterFull
deriving DecidableEq, Repr

/-- Why something was not done: it was refused, or the work on it broke down. -/
inductive Setback where
  | refused (refusal : Refusal)
  | broken (breakdown : Breakdown)
deriving DecidableEq, Repr

instance : MonadLift (Except Refusal) (Except Setback) := ⟨Except.mapError .refused⟩

end JobDispatch
