import JobDispatch.Snapshot
import JobDispatch.Proofs.Ledger
import JobDispatch.Proofs.Wire.Records
set_option autoImplicit false

namespace JobDispatch

open Json (Value Decoder)
open Json.Decode Json.RecordDecoder

namespace Board

/-- The board can be kept as a document: each record is filed under its own id, no job breaks a
rule, and all numbers are finite. -/
structure Storable (board : Board) : Prop where
  jobs : ∀ key job, board.jobs.get? key = some job →
    key = job.id ∧ job.brokenRule? = none ∧ job.jobSize.isFinite = true
  engines : ∀ key engine, board.engines.get? key = some engine →
    key = engine.id ∧ engine.IsFinite

theorem storable_empty : empty.Storable where
  jobs := by
    intro key job found
    cases found
  engines := by
    intro key engine found
    cases found

theorem storable_iff_entries {board : Board} : board.Storable ↔
    (∀ entry ∈ board.jobs.entries, entry.1 = entry.2.id ∧ entry.2.brokenRule? = none
        ∧ entry.2.jobSize.isFinite = true)
      ∧ ∀ entry ∈ board.engines.entries, entry.1 = entry.2.id ∧ entry.2.IsFinite := by
  constructor
  · rintro ⟨jobs, engines⟩
    exact ⟨fun entry member => jobs _ _ (Ledger.get?_eq_some_iff.2 member),
      fun entry member => engines _ _ (Ledger.get?_eq_some_iff.2 member)⟩
  · rintro ⟨jobs, engines⟩
    exact ⟨fun key job found => jobs (key, job) (Ledger.get?_eq_some_iff.1 found),
      fun key engine found => engines (key, engine) (Ledger.get?_eq_some_iff.1 found)⟩

instance (board : Board) : Decidable board.Storable :=
  have (engine : Engine) : Decidable engine.IsFinite := inferInstanceAs (Decidable (_ ∧ _))
  decidable_of_iff _ storable_iff_entries.symm

theorem checkJob_eq_ok {key : Uuid} {job : Job} :
    checkJob key job = .ok () ↔ key = job.id ∧ job.brokenRule? = none := by
  simp only [checkJob, Job.check]
  split
  · rename_i own
    split <;> simp_all
  · simp_all

theorem checkEngine_eq_ok {key : String} {engine : Engine} :
    checkEngine key engine = .ok () ↔ key = engine.id := by
  simp only [checkEngine]
  split <;> simp_all

/-- The check passes exactly when each record is in order. -/
theorem check_eq_ok {board : Board} : board.check = .ok () ↔
    (∀ key job, board.jobs.get? key = some job → key = job.id ∧ job.brokenRule? = none)
      ∧ ∀ key engine, board.engines.get? key = some engine → key = engine.id := by
  rw [check, bind_eq_ok]
  constructor
  · rintro ⟨⟨⟩, jobs, engines⟩
    rw [forM_eq_ok] at jobs engines
    constructor
    · intro key job found
      exact checkJob_eq_ok.1 (jobs _ (Ledger.get?_eq_some_iff.1 found))
    · intro key engine found
      exact checkEngine_eq_ok.1 (engines _ (Ledger.get?_eq_some_iff.1 found))
  · rintro ⟨jobs, engines⟩
    refine ⟨(), forM_eq_ok.2 ?_, forM_eq_ok.2 ?_⟩
    · intro entry member
      exact checkJob_eq_ok.2 (jobs entry.1 entry.2 (Ledger.get?_eq_some_iff.2 member))
    · intro entry member
      exact checkEngine_eq_ok.2 (engines entry.1 entry.2 (Ledger.get?_eq_some_iff.2 member))

theorem isWritable_toJson (board : Board) : board.toJson.IsWritable := by
  apply Value.isWritable_record
  simp only [List.forall_mem_cons]
  refine ⟨?_, ?_, by simp⟩
  · apply Value.isWritable_record
    intro member inside
    obtain ⟨entry, _, equal⟩ := List.mem_map.1 inside
    subst equal
    exact entry.2.isWritable_toJson
  · apply Value.isWritable_record
    intro member inside
    obtain ⟨entry, _, equal⟩ := List.mem_map.1 inside
    subst equal
    exact entry.2.isWritable_toJson

theorem names_fields : (fields.rules.map Json.FieldRule.name).Nodup := by
  decide

theorem decode_toJson {board : Board} (storable : board.Storable) :
    fields.decode board.toJson = .ok board := by
  have jobs : jobsDecoder (.record (board.jobs.entries.map fun entry =>
      (entry.1.text, entry.2.toJson))) = .ok board.jobs := by
    have read := members_record Uuid.ofText? Job.fields.decode Uuid.text Job.toJson
      board.jobs.entries
      (fun entry _ => Uuid.ofText?_text entry.1)
      (fun entry member => entry.2.decode_toJson
        (storable.jobs entry.1 entry.2 (Ledger.get?_eq_some_iff.2 member)).2.2)
    simp only [jobsDecoder, read, Except.map, Ledger.ofList_entries]
  have engines : enginesDecoder (.record (board.engines.entries.map fun entry =>
      (entry.1, entry.2.toJson))) = .ok board.engines := by
    have read := members_record some Engine.fields.decode id Engine.toJson board.engines.entries
      (fun entry _ => rfl)
      (fun entry member => entry.2.decode_toJson
        (storable.engines entry.1 entry.2 (Ledger.get?_eq_some_iff.2 member)).2)
    simp only [id] at read
    simp only [enginesDecoder, read, Except.map, Ledger.ofList_entries]
  apply decode_record names_fields
  exact ((reads_field jobs).map Board.mk).seq (reads_field engines)

/-- The document of a board holds that board. -/
theorem ofBytes?_documentBytes {board : Board} (storable : board.Storable) :
    ofBytes? board.documentBytes = .ok board := by
  have checked : board.check = .ok () := check_eq_ok.2
    ⟨fun key job found => ⟨(storable.jobs key job found).1, (storable.jobs key job found).2.1⟩,
      fun key engine found => (storable.engines key engine found).1⟩
  have decoded : Json.decodeSymbols fields.decode (Text.symbolsOfBytes board.documentBytes) =
      .ok board :=
    Json.decodeSymbols_print Json.isBlank_indented board.isWritable_toJson (decode_toJson storable)
  rw [ofBytes?, decoded]
  simp only [checked, bind, Except.bind, pure, Except.pure]

theorem isFinite_of_jobsDecoder {value : Value} {jobs : JobLedger}
    (read : jobsDecoder value = .ok jobs) (key : Uuid) (job : Job)
    (found : jobs.get? key = some job) : job.jobSize.isFinite = true := by
  obtain ⟨entries, parts, filed⟩ := map_eq_ok.1 read
  subst filed
  exact members_forall (fun job => job.jobSize.isFinite = true)
    (fun _ _ => Job.isFinite_of_decode) parts _ (Ledger.mem_of_get?_ofList found)

theorem isFinite_of_enginesDecoder {value : Value} {engines : EnginePool}
    (read : enginesDecoder value = .ok engines) (key : String) (engine : Engine)
    (found : engines.get? key = some engine) : engine.IsFinite := by
  obtain ⟨entries, parts, filed⟩ := map_eq_ok.1 read
  subst filed
  exact members_forall Engine.IsFinite (fun _ _ => Engine.isFinite_of_decode) parts _
    (Ledger.mem_of_get?_ofList found)

/-- The numbers of a decoded board are finite. -/
theorem isFinite_of_decode {value : Value} {board : Board}
    (read : fields.decode value = .ok board) :
    (∀ key job, board.jobs.get? key = some job → job.jobSize.isFinite = true)
      ∧ ∀ key engine, board.engines.get? key = some engine → engine.IsFinite := by
  suffices gives : fields.Gives fun board =>
      (∀ key job, board.jobs.get? key = some job → job.jobSize.isFinite = true)
        ∧ ∀ key engine, board.engines.get? key = some engine → engine.IsFinite from
    gives.decode read
  refine Gives.seq ?_ (gives_field (fun _ _ => isFinite_of_enginesDecoder) ?_)
  · refine Gives.seq ?_ (gives_field (fun _ _ => isFinite_of_jobsDecoder) ?_)
    · intro found build built jobs jobsFinite engines enginesFinite
      cases built
      exact ⟨jobsFinite, enginesFinite⟩
    · intro positional jobs absent key job found
      cases absent
      cases found
  · intro positional engines absent key engine found
    cases absent
    cases found

/-- A document that is accepted holds a board that can be kept. -/
theorem storable_of_ofBytes? {content : ByteArray} {board : Board}
    (read : ofBytes? content = .ok board) : board.Storable := by
  rw [ofBytes?] at read
  split at read
  · cases read
  · rename_i decoded
    obtain ⟨⟨⟩, checked, equal⟩ := bind_eq_ok.1 read
    cases equal
    have finite := isFinite_of_decode (Json.decodeSymbols_eq_ok.1 decoded).1
    have rules := check_eq_ok.1 checked
    exact ⟨fun key job found => ⟨(rules.1 key job found).1, (rules.1 key job found).2,
        finite.1 key job found⟩,
      fun key engine found => ⟨rules.2 key engine found, finite.2 key engine found⟩⟩

end Board

end JobDispatch
