import JobDispatch.Wire.Records
import JobDispatch.Proofs.Json.Decoder
import JobDispatch.Proofs.Json.Document
set_option autoImplicit false

namespace JobDispatch

open Json (Value)
open Json.Decode Json.RecordDecoder

namespace Json.Value

theorem areWritableMembers_record (members : List (String × Value))
    (each : ∀ member ∈ members, member.2.IsWritable) :
    AreWritableMembers (members.map fun (key, value) => (text key, value)) := by
  induction members with
  | nil => trivial
  | cons member members ih =>
    rw [List.forall_mem_cons] at each
    exact ⟨⟨member.1, rfl⟩, each.1, ih each.2⟩

theorem isWritable_record (members : List (String × Value))
    (each : ∀ member ∈ members, member.2.IsWritable) : (record members).IsWritable :=
  areWritableMembers_record members each

theorem isWritable_text (content : String) : (text content).IsWritable := rfl

theorem isWritable_nat (n : Nat) : (nat n).IsWritable := Number.wellFormed_ofNat n

theorem isWritable_float (number : Binary64) : (float number).IsWritable := by
  by_cases finite : number.isFinite = true
  · rw [float, if_pos finite]
    exact Number.wellFormed_ofBinary64 number finite
  · rw [float, if_neg finite]
    trivial

theorem float_ne_null {number : Binary64} (finite : number.isFinite = true) :
    float number ≠ .null := by
  rw [float, if_pos finite]
  exact fun equal => by cases equal

theorem isWritable_orNull {α : Type} {encode : α → Value} (each : ∀ a, (encode a).IsWritable)
    (present : Option α) : (orNull encode present).IsWritable := by
  cases present with
  | none => trivial
  | some a => exact each a

theorem areWritable_map {α : Type} {encode : α → Value} (each : ∀ a, (encode a).IsWritable)
    (items : List α) : AreWritable (items.map encode) := by
  induction items with
  | nil => trivial
  | cons item items ih => exact ⟨each item, ih⟩

end Json.Value

/-- A text with white space behind it holds the value that it was written for. -/
theorem Json.read_text {layout : Json.Layout} (blank : layout.IsBlank) {value : Value}
    (writable : value.IsWritable) (trail : List Char)
    (spaced : ∀ c ∈ trail, Json.isGap (some c) = true) :
    Json.Document.read (Text.symbolsOfBytes
      (String.ofList (value.print layout 0 ++ trail)).toUTF8) = ⟨value, true⟩ := by
  have symbols : Text.symbolsOfBytes (String.ofList (value.print layout 0 ++ trail)).toUTF8 =
      (value.print layout 0 ++ trail).map some := by
    show Text.symbolsOfBytes (String.ofList _).toByteArray = _
    rw [Text.symbolsOfBytes_toByteArray, Text.symbols, String.toList_ofList]
  rw [symbols, Json.read_print_append layout blank value writable trail spaced]

/-- What is decoded from a value is decoded from the bytes of its text. -/
theorem Json.decodeSymbols_print {α : Type} {layout : Json.Layout} (blank : layout.IsBlank)
    {decode : Json.Decoder α} {value : Value} {a : α} (writable : value.IsWritable)
    (read : decode value = .ok a) :
    Json.decodeSymbols decode
      (Text.symbolsOfBytes (String.ofList (value.print layout 0)).toUTF8) = .ok a := by
  have held := Json.read_text blank writable [] (by simp)
  rw [List.append_nil] at held
  rw [Json.decodeSymbols_eq_ok, held]
  exact ⟨read, rfl⟩

theorem isWritable_textOrNull (content : Option String) : (textOrNull content).IsWritable :=
  Value.isWritable_orNull Value.isWritable_text content

theorem Uuid.isWritable_toJson (id : Uuid) : id.toJson.IsWritable := Value.isWritable_text _

theorem Time.Instant.isWritable_toJson (time : Time.Instant) : time.toJson.IsWritable :=
  Value.isWritable_text _

theorem nullable_textOrNull (content : Option String) :
    nullable text (textOrNull content) = .ok content :=
  nullable_orNull (fun _ _ equal => by cases equal) fun content _ => text_text content

theorem JobStatus.decoder_toJson (status : JobStatus) : decoder status.toJson = .ok status := by
  apply choice_name
  cases status <;> decide

theorem EngineStatus.decoder_toJson (status : EngineStatus) :
    decoder status.toJson = .ok status := by
  apply choice_name
  cases status <;> decide

namespace Job

theorem isWritable_toJson (job : Job) : job.toJson.IsWritable := by
  apply Value.isWritable_record
  simp only [List.forall_mem_cons]
  exact ⟨job.id.isWritable_toJson, Value.isWritable_text _, Value.isWritable_text _,
    Value.isWritable_float _, Value.isWritable_text _, isWritable_textOrNull _,
    isWritable_textOrNull _, isWritable_textOrNull _, Value.isWritable_nat _,
    Value.isWritable_nat _, isWritable_textOrNull _, job.createdAt.isWritable_toJson,
    job.updatedAt.isWritable_toJson,
    Value.isWritable_orNull Time.Instant.isWritable_toJson job.assignedAt, by simp⟩

theorem names_fields : (fields.rules.map Json.FieldRule.name).Nodup := by
  decide

/-- A job of finite size is decoded from what is written of it. -/
theorem decode_toJson (job : Job) (finite : job.jobSize.isFinite = true) :
    fields.decode job.toJson = .ok job := by
  have times : nullable instant (.orNull (·.toJson) job.assignedAt) = .ok job.assignedAt :=
    nullable_orNull (fun _ _ equal => by cases equal) fun time _ => instant_text time
  apply decode_record names_fields
  exact ((((((((((((((reads_field (uuid_text job.id)).map Job.mk).seq
    (reads_field (text_text job.sourceUrl))).seq
    (reads_field (text_text job.targetCodec))).seq
    (reads_field (float_float job.jobSize finite))).seq
    (reads_field job.status.decoder_toJson)).seq
    (reads_field (nullable_textOrNull job.assignedEngine))).seq
    (reads_field (nullable_textOrNull job.lastEngine))).seq
    (reads_field (nullable_textOrNull job.outputUrl))).seq
    (reads_field (word32_nat job.retries))).seq
    (reads_field (word32_nat job.maxRetries))).seq
    (reads_field (nullable_textOrNull job.errorMessage))).seq
    (reads_field (instant_text job.createdAt))).seq
    (reads_field (instant_text job.updatedAt))).seq
    (reads_field times)

/-- A decoded job has a finite size. -/
theorem isFinite_of_decode {value : Value} {job : Job} (read : fields.decode value = .ok job) :
    job.jobSize.isFinite = true := by
  suffices gives : fields.Gives fun job => job.jobSize.isFinite = true from gives.decode read
  iterate 10 apply Gives.step
  refine Gives.seq ?_ (gives_required fun _ _ => isFinite_of_float)
  iterate 2 apply Gives.step
  apply Gives.map
  intros
  assumption

end Job

namespace Engine

theorem isWritable_toJson (engine : Engine) : engine.toJson.IsWritable := by
  apply Value.isWritable_record
  simp only [List.forall_mem_cons]
  exact ⟨Value.isWritable_text _, Value.isWritable_text _, Value.isWritable_float _,
    engine.lastHeartbeat.isWritable_toJson,
    Value.isWritable_orNull Value.isWritable_float engine.benchmarkTime,
    Value.isWritable_orNull Uuid.isWritable_toJson engine.currentJob, by simp⟩

theorem names_fields : (fields.rules.map Json.FieldRule.name).Nodup := by
  decide

def IsFinite (engine : Engine) : Prop :=
  engine.storageCapacity.isFinite = true
    ∧ ∀ time ∈ engine.benchmarkTime, time.isFinite = true

/-- An engine with finite numbers is decoded from what is written of it. -/
theorem decode_toJson (engine : Engine) (finite : engine.IsFinite) :
    fields.decode engine.toJson = .ok engine := by
  have benchmark : nullable float (.orNull Value.float engine.benchmarkTime) =
      .ok engine.benchmarkTime :=
    nullable_orNull (fun time known => Value.float_ne_null (finite.2 time known))
      fun time known => float_float time (finite.2 time known)
  have job : nullable uuid (.orNull Uuid.toJson engine.currentJob) = .ok engine.currentJob :=
    nullable_orNull (fun _ _ equal => by cases equal) fun id _ => uuid_text id
  apply decode_record names_fields
  exact ((((((reads_field (text_text engine.id)).map Engine.mk).seq
    (reads_field engine.status.decoder_toJson)).seq
    (reads_field (float_float engine.storageCapacity finite.1))).seq
    (reads_field (instant_text engine.lastHeartbeat))).seq
    (reads_field benchmark)).seq
    (reads_field job)

/-- A decoded engine has finite numbers. -/
theorem isFinite_of_decode {value : Value} {engine : Engine}
    (read : fields.decode value = .ok engine) : engine.IsFinite := by
  suffices gives : fields.Gives IsFinite from gives.decode read
  apply Gives.step
  refine Gives.seq ?_ (gives_field (nullable_forall fun _ _ => isFinite_of_float) ?_)
  · apply Gives.step
    refine Gives.seq ?_ (gives_required fun _ _ => isFinite_of_float)
    apply Gives.step
    apply Gives.map
    intro id status capacity finite heartbeat benchmark known job
    exact ⟨finite, known⟩
  · intro positional benchmark absent
    cases positional <;> cases absent
    simp

end Engine

namespace JobRequest

theorem isWritable_toJson (request : JobRequest) : request.toJson.IsWritable := by
  apply Value.isWritable_record
  simp only [List.forall_mem_cons]
  exact ⟨Value.isWritable_text _, Value.isWritable_text _, Value.isWritable_float _,
    Value.isWritable_nat _, by simp⟩

theorem names_fields : (fields.rules.map Json.FieldRule.name).Nodup := by
  decide

/-- A request for a job of finite size is decoded from what is written of it. -/
theorem decode_toJson (request : JobRequest) (finite : request.jobSize.isFinite = true) :
    fields.decode request.toJson = .ok request := by
  apply decode_record names_fields
  exact ((((reads_field (text_text request.sourceUrl)).map JobRequest.mk).seq
    (reads_field (text_text request.targetCodec))).seq
    (reads_field (float_float request.jobSize finite))).seq
    (reads_field (word32_nat request.maxRetries))

/-- A decoded request is for a job of finite size. -/
theorem isFinite_of_decode {value : Value} {request : JobRequest}
    (read : fields.decode value = .ok request) : request.jobSize.isFinite = true := by
  suffices gives : fields.Gives fun request => request.jobSize.isFinite = true from
    gives.decode read
  apply Gives.step
  refine Gives.seq ?_ (gives_required fun _ _ => isFinite_of_float)
  apply Gives.step
  apply Gives.map
  intros
  assumption

end JobRequest

namespace Heartbeat

theorem isWritable_toJson (heartbeat : Heartbeat) : heartbeat.toJson.IsWritable := by
  apply Value.isWritable_record
  simp only [List.forall_mem_cons]
  exact ⟨Value.isWritable_text _, Value.isWritable_text _, Value.isWritable_float _, by simp⟩

theorem names_fields : (fields.rules.map Json.FieldRule.name).Nodup := by
  decide

/-- A report of a finite capacity is decoded from what is written of it. -/
theorem decode_toJson (heartbeat : Heartbeat)
    (finite : heartbeat.storageCapacity.isFinite = true) :
    fields.decode heartbeat.toJson = .ok heartbeat := by
  apply decode_record names_fields
  exact (((reads_field (text_text heartbeat.engineId)).map Heartbeat.mk).seq
    (reads_field heartbeat.status.decoder_toJson)).seq
    (reads_field (float_float heartbeat.storageCapacity finite))

/-- A decoded report tells of a finite capacity. -/
theorem isFinite_of_decode {value : Value} {heartbeat : Heartbeat}
    (read : fields.decode value = .ok heartbeat) : heartbeat.storageCapacity.isFinite = true := by
  suffices gives : fields.Gives fun heartbeat => heartbeat.storageCapacity.isFinite = true from
    gives.decode read
  refine Gives.seq ?_ (gives_required fun _ _ => isFinite_of_float)
  apply Gives.step
  apply Gives.map
  intros
  assumption

end Heartbeat

namespace JobCounts

theorem isWritable_toJson (counts : JobCounts) : counts.toJson.IsWritable := by
  apply Value.isWritable_record
  simp only [List.forall_mem_cons]
  exact ⟨Value.isWritable_nat _, Value.isWritable_nat _, Value.isWritable_nat _,
    Value.isWritable_nat _, by simp⟩

theorem names_fields : (fields.rules.map Json.FieldRule.name).Nodup := by
  decide

structure FitsWords (counts : JobCounts) : Prop where
  pending : counts.pending < UInt64.size
  assigned : counts.assigned < UInt64.size
  completed : counts.completed < UInt64.size
  failedPermanently : counts.failedPermanently < UInt64.size

theorem decode_toJson (counts : JobCounts) (fits : counts.FitsWords) :
    fields.decode counts.toJson = .ok counts := by
  apply decode_record names_fields
  exact ((((reads_field (count_nat fits.pending)).map JobCounts.mk).seq
    (reads_field (count_nat fits.assigned))).seq
    (reads_field (count_nat fits.completed))).seq
    (reads_field (count_nat fits.failedPermanently))

theorem fitsWords_of_decode {value : Value} {counts : JobCounts}
    (read : fields.decode value = .ok counts) : counts.FitsWords := by
  have small (name : String) : (required name count).Gives fun n => n < UInt64.size :=
    gives_required fun _ _ => lt_of_natBelow
  suffices gives : fields.Gives FitsWords from gives.decode read
  exact Gives.seq (Gives.seq (Gives.seq (Gives.seq (gives_pure
    fun _ pending _ assigned _ completed _ failed => ⟨pending, assigned, completed, failed⟩)
    (small _)) (small _)) (small _)) (small _)

end JobCounts

namespace EngineCounts

theorem isWritable_toJson (counts : EngineCounts) : counts.toJson.IsWritable := by
  apply Value.isWritable_record
  simp only [List.forall_mem_cons]
  exact ⟨Value.isWritable_nat _, Value.isWritable_nat _, by simp⟩

theorem names_fields : (fields.rules.map Json.FieldRule.name).Nodup := by
  decide

structure FitsWords (counts : EngineCounts) : Prop where
  idle : counts.idle < UInt64.size
  busy : counts.busy < UInt64.size

theorem decode_toJson (counts : EngineCounts) (fits : counts.FitsWords) :
    fields.decode counts.toJson = .ok counts := by
  apply decode_record names_fields
  exact ((reads_field (count_nat fits.idle)).map EngineCounts.mk).seq
    (reads_field (count_nat fits.busy))

theorem fitsWords_of_decode {value : Value} {counts : EngineCounts}
    (read : fields.decode value = .ok counts) : counts.FitsWords := by
  have small (name : String) : (required name count).Gives fun n => n < UInt64.size :=
    gives_required fun _ _ => lt_of_natBelow
  suffices gives : fields.Gives FitsWords from gives.decode read
  exact Gives.seq (Gives.seq (gives_pure fun _ idle _ busy => ⟨idle, busy⟩) (small _)) (small _)

end EngineCounts

namespace Statistics

theorem isWritable_toJson (statistics : Statistics) : statistics.toJson.IsWritable := by
  apply Value.isWritable_record
  simp only [List.forall_mem_cons]
  exact ⟨Value.isWritable_nat _, Value.isWritable_nat _, statistics.jobs.isWritable_toJson,
    statistics.engines.isWritable_toJson, by simp⟩

theorem names_fields : (fields.rules.map Json.FieldRule.name).Nodup := by
  decide

structure FitsWords (statistics : Statistics) : Prop where
  jobsTotal : statistics.jobsTotal < UInt64.size
  enginesTotal : statistics.enginesTotal < UInt64.size
  jobs : statistics.jobs.FitsWords
  engines : statistics.engines.FitsWords

/-- Statistics with numbers of 64 bits are decoded from what is written of them. -/
theorem decode_toJson (statistics : Statistics) (fits : statistics.FitsWords) :
    fields.decode statistics.toJson = .ok statistics := by
  apply decode_record names_fields
  exact ((((reads_field (count_nat fits.jobsTotal)).map Statistics.mk).seq
    (reads_field (count_nat fits.enginesTotal))).seq
    (reads_field (statistics.jobs.decode_toJson fits.jobs))).seq
    (reads_field (statistics.engines.decode_toJson fits.engines))

/-- Decoded statistics have numbers of 64 bits. -/
theorem fitsWords_of_decode {value : Value} {statistics : Statistics}
    (read : fields.decode value = .ok statistics) : statistics.FitsWords := by
  have small (name : String) : (required name count).Gives fun n => n < UInt64.size :=
    gives_required fun _ _ => lt_of_natBelow
  suffices gives : fields.Gives FitsWords from gives.decode read
  exact Gives.seq (Gives.seq (Gives.seq (Gives.seq (gives_pure
    fun _ jobsTotal _ enginesTotal _ jobs _ engines => ⟨jobsTotal, enginesTotal, jobs, engines⟩)
    (small _)) (small _))
    (gives_required fun _ _ => JobCounts.fitsWords_of_decode))
    (gives_required fun _ _ => EngineCounts.fitsWords_of_decode)

end Statistics

end JobDispatch
