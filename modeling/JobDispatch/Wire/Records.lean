import JobDispatch.Board
import JobDispatch.Json.Decoder
set_option autoImplicit false

namespace JobDispatch

open Json (Value Decoder RecordDecoder)
open Json.Decode Json.RecordDecoder

def Uuid.toJson (id : Uuid) : Value := .text id.text

def Time.Instant.toJson (t : Time.Instant) : Value := .text t.text

def textOrNull (content : Option String) : Value := .orNull Value.text content

namespace JobStatus

def toJson (status : JobStatus) : Value := .text status.name

def decoder : Decoder JobStatus := choice byName

end JobStatus

namespace EngineStatus

def toJson (status : EngineStatus) : Value := .text status.name

def decoder : Decoder EngineStatus := choice byName

end EngineStatus

namespace JobRequest

def toJson (request : JobRequest) : Value := .record
  [("source_url", .text request.sourceUrl), ("target_codec", .text request.targetCodec),
    ("job_size", .float request.jobSize), ("max_retries", .nat request.maxRetries.toNat)]

def fields : RecordDecoder JobRequest :=
  JobRequest.mk <$> required "source_url" text <*> required "target_codec" text
    <*> required "job_size" float <*> required "max_retries" word32

end JobRequest

namespace Job

/-- A job with all its fields; what is absent is `null`. -/
def toJson (job : Job) : Value := .record
  [("id", job.id.toJson), ("source_url", .text job.sourceUrl),
    ("target_codec", .text job.targetCodec), ("job_size", .float job.jobSize),
    ("status", job.status.toJson), ("assigned_engine", textOrNull job.assignedEngine),
    ("last_engine", textOrNull job.lastEngine), ("output_url", textOrNull job.outputUrl),
    ("retries", .nat job.retries.toNat), ("max_retries", .nat job.maxRetries.toNat),
    ("error_message", textOrNull job.errorMessage), ("created_at", job.createdAt.toJson),
    ("updated_at", job.updatedAt.toJson), ("assigned_at", .orNull (·.toJson) job.assignedAt)]

/-- Records that were written before the last engine was kept do not have that field. -/
def fields : RecordDecoder Job :=
  Job.mk <$> required "id" uuid <*> required "source_url" text <*> required "target_codec" text
    <*> required "job_size" float <*> required "status" JobStatus.decoder
    <*> optional "assigned_engine" text <*> defaulted "last_engine" (nullable text) none
    <*> optional "output_url" text <*> required "retries" word32
    <*> required "max_retries" word32 <*> optional "error_message" text
    <*> required "created_at" instant <*> required "updated_at" instant
    <*> optional "assigned_at" instant

end Job

namespace Heartbeat

def toJson (heartbeat : Heartbeat) : Value := .record
  [("engine_id", .text heartbeat.engineId), ("status", heartbeat.status.toJson),
    ("storage_capacity", .float heartbeat.storageCapacity)]

def fields : RecordDecoder Heartbeat :=
  Heartbeat.mk <$> required "engine_id" text <*> required "status" EngineStatus.decoder
    <*> required "storage_capacity" float

end Heartbeat

namespace Engine

/-- An engine with all its fields; what is absent is `null`. -/
def toJson (engine : Engine) : Value := .record
  [("id", .text engine.id), ("status", engine.status.toJson),
    ("storage_capacity", .float engine.storageCapacity),
    ("last_heartbeat", engine.lastHeartbeat.toJson),
    ("benchmark_time", .orNull Value.float engine.benchmarkTime),
    ("current_job", .orNull Uuid.toJson engine.currentJob)]

/-- The benchmark and the current job may be absent. -/
def fields : RecordDecoder Engine :=
  Engine.mk <$> required "id" text <*> required "status" EngineStatus.decoder
    <*> required "storage_capacity" float <*> required "last_heartbeat" instant
    <*> optional "benchmark_time" float <*> optional "current_job" uuid

end Engine

namespace FailureOutcome

def toJson : FailureOutcome → Value
  | requeued retries maxRetries => .record
    [("status", .text "requeued"), ("retries", .nat retries.toNat),
      ("max_retries", .nat maxRetries.toNat)]
  | failedPermanently retries errorMessage => .record
    [("status", .text "failed_permanently"), ("retries", .nat retries.toNat),
      ("error_message", .text errorMessage)]

def decoder : Decoder FailureOutcome := tagged "status"
  [("requeued", requeued <$> required "retries" word32 <*> required "max_retries" word32),
    ("failed_permanently",
      failedPermanently <$> required "retries" word32 <*> required "error_message" text)]

end FailureOutcome

namespace AssignmentOutcome

def toJson : AssignmentOutcome → Value
  | assigned job engine => .record
    [("outcome", .text "assigned"), ("job_id", job.toJson), ("engine_id", .text engine)]
  | noPendingJobs => .record [("outcome", .text "no_pending_jobs")]
  | noEligibleEngines job => .record
    [("outcome", .text "no_eligible_engines"), ("job_id", job.toJson)]

def decoder : Decoder AssignmentOutcome := tagged "outcome"
  [("assigned", assigned <$> required "job_id" uuid <*> required "engine_id" text),
    ("no_pending_jobs", pure noPendingJobs),
    ("no_eligible_engines", noEligibleEngines <$> required "job_id" uuid)]

end AssignmentOutcome

namespace JobCounts

def toJson (counts : JobCounts) : Value := .record
  [("pending", .nat counts.pending), ("assigned", .nat counts.assigned),
    ("completed", .nat counts.completed),
    ("failed_permanently", .nat counts.failedPermanently)]

def fields : RecordDecoder JobCounts :=
  JobCounts.mk <$> required "pending" count <*> required "assigned" count
    <*> required "completed" count <*> required "failed_permanently" count

end JobCounts

namespace EngineCounts

def toJson (counts : EngineCounts) : Value := .record
  [("idle", .nat counts.idle), ("busy", .nat counts.busy)]

def fields : RecordDecoder EngineCounts :=
  EngineCounts.mk <$> required "idle" count <*> required "busy" count

end EngineCounts

namespace Statistics

def toJson (statistics : Statistics) : Value := .record
  [("jobs_total", .nat statistics.jobsTotal), ("engines_total", .nat statistics.enginesTotal),
    ("jobs", statistics.jobs.toJson), ("engines", statistics.engines.toJson)]

def fields : RecordDecoder Statistics :=
  Statistics.mk <$> required "jobs_total" count <*> required "engines_total" count
    <*> required "jobs" JobCounts.fields.decode <*> required "engines" EngineCounts.fields.decode

end Statistics

end JobDispatch
