import JobDispatch.Proofs.Board.Provenance
import JobDispatch.Proofs.Desk.Bookkeeping
set_option autoImplicit false

namespace JobDispatch

open Time

namespace Desk

variable {desk : Desk} {name : String}

theorem engineJobs_of_known (known : name ∈ desk.board.engines.keys) :
    desk.engineJobs name = .ok (desk.board.jobs.ofEngine name) := by
  cases found : desk.board.engines.get? name with
  | none => exact absurd known (Ledger.get?_eq_none_iff.1 found)
  | some engine =>
    rw [engineJobs, EnginePool.find_eq_ok.2 found]
    rfl

theorem engineJobs_of_unknown (unknown : name ∉ desk.board.engines.keys) :
    desk.engineJobs name = .error (.unknownEngine name) := by
  simp only [engineJobs, EnginePool.find, Ledger.get?_eq_none_iff.2 unknown]
  rfl

end Desk

namespace Board

variable {log : Log} {board : Board} {name : String}

/-- The jobs of an engine are those that the log last saw there. -/
theorem Traced.ofEngine_eq (traced : Traced log board) (keyed : board.Keyed) (name : String) :
    board.jobs.ofEngine name =
      board.jobs.records.filter fun job => log.lastHolder? job.id = some name := by
  refine List.filter_congr fun job member => ?_
  obtain ⟨key, found⟩ := Ledger.mem_records_iff.1 member
  rw [(traced.jobs key job found).recorded, keyed.jobs key job found]

/-- Their ids stand in the order in which the jobs were brought in. -/
theorem Traced.map_id_ofEngine (traced : Traced log board) (keyed : board.Keyed)
    (sequenced : board.jobs.Sequenced log) (name : String) :
    (board.jobs.ofEngine name).map Job.id =
      log.submittedJobs.filter fun id => log.lastHolder? id = some name := by
  rw [traced.ofEngine_eq keyed, ← sequenced.submitted, keyed.jobKeys, List.filter_map]
  rfl

theorem Traced.mem_map_id_ofEngine (traced : Traced log board) (keyed : board.Keyed)
    (sequenced : board.jobs.Sequenced log) {id : Uuid} :
    id ∈ (board.jobs.ofEngine name).map Job.id ↔ log.lastHolder? id = some name := by
  rw [traced.map_id_ofEngine keyed sequenced, List.mem_filter, decide_eq_true_iff]
  refine ⟨And.right, fun told => ⟨?_, told⟩⟩
  rw [← sequenced.submitted]
  exact (traced.known id name told).1

end Board

namespace Session

/-- In every state of a run that begins without a document, the jobs of an engine that is on file
are those that were last given to it, whatever became of them since, in the order of their
submission. The job that it holds is one of them. An engine that is not on file is refused. So every
job that was ever given to an engine is among the jobs of exactly one engine, and any other job is
among those of none. -/
theorem engine_jobs_partition {settings : Settings} {disk : Disk} {ids : IdSupply} {desk : Desk}
    (opened : Desk.start settings disk ids = .ok desk) (vacant : disk.load = .ok none)
    (turns : List Turn)
    (distinct : (ids.between ids.issued ((opening desk).run turns).desk.ids.issued).Nodup) :
    let final := (opening desk).run turns
    let engines := final.desk.board.engines
    let isListed (id : Uuid) (name : String) : Prop :=
      ∃ jobs, final.desk.engineJobs name = .ok jobs ∧ id ∈ jobs.map Job.id
    (∀ name ∈ engines.keys, ∃ jobs, final.desk.engineJobs name = .ok jobs
        ∧ jobs = (final.desk.jobs.filter fun job => final.log.lastHolder? job.id = some name)
        ∧ jobs.map Job.id =
          final.log.submittedJobs.filter fun id => final.log.lastHolder? id = some name)
      ∧ (∀ name engine id, engines.get? name = some engine → engine.currentJob = some id →
        isListed id name)
      ∧ (∀ name, name ∉ engines.keys →
        final.desk.engineJobs name = .error (.unknownEngine name))
      ∧ (∀ id, (∃ entry ∈ final.log, entry.2.binds id = true) →
        ∃! name, name ∈ engines.keys ∧ isListed id name)
      ∧ ∀ id, (∀ entry ∈ final.log, entry.2.binds id = false) → ∀ name, ¬ isListed id name := by
  intro final engines isListed
  obtain ⟨history, fresh⟩ := history_of_vacant opened vacant turns distinct
  have keyed : final.desk.board.Keyed := (history.storable Board.storable_empty).keyed
  have traced := history.traced fresh
  have sequenced := history.sequenced fresh
  have listed_iff (id : Uuid) (name : String) :
      isListed id name ↔ final.log.lastHolder? id = some name := by
    rw [← traced.mem_map_id_ofEngine keyed sequenced]
    constructor
    · rintro ⟨jobs, told, member⟩
      by_cases known : name ∈ engines.keys
      · cases (Desk.engineJobs_of_known known).symm.trans told
        exact member
      · cases (Desk.engineJobs_of_unknown known).symm.trans told
    · intro member
      have told := (traced.mem_map_id_ofEngine keyed sequenced).1 member
      exact ⟨_, Desk.engineJobs_of_known (traced.known id name told).2, member⟩
  refine ⟨fun name known => ?_, fun name engine id known holds => ?_,
    fun name unknown => Desk.engineJobs_of_unknown unknown, fun id bound => ?_,
    fun id unbound name listed => ?_⟩
  · exact ⟨_, Desk.engineJobs_of_known known, traced.ofEngine_eq keyed name,
      traced.map_id_ofEngine keyed sequenced name⟩
  · obtain ⟨job, found, assigned⟩ := (history.matched fresh).1.holding name engine id known holds
    exact (listed_iff id name).2 ((traced.jobs id job found).current name assigned)
  · obtain ⟨name, told⟩ : ∃ name, final.log.lastHolder? id = some name := by
      rw [← Option.ne_none_iff_exists', ne_eq, Log.lastHolder?_eq_none_iff]
      obtain ⟨entry, member, given⟩ := bound
      intro unbound
      rw [unbound entry member] at given
      cases given
    refine ⟨name, ⟨(traced.known id name told).2, (listed_iff id name).2 told⟩, ?_⟩
    rintro other ⟨_, listed⟩
    exact Option.some.inj (((listed_iff id other).1 listed).symm.trans told)
  · rw [listed_iff, Log.lastHolder?_eq_none_iff.2 unbound] at listed
    cases listed

/-- A run in which a job fails at one engine and is given to another one, and a second job is
submitted. -/
def movedJob : List Turn :=
  startedJob ++ [.ask (.fail (Uuid.ofNat 0) "broken") .first,
    .ask (.heartbeat ⟨"other", .idle, Binary64.zero false⟩) .first,
    .ask (.benchmark "other" (Binary64.zero false)) .first, .ask .assign .first,
    .ask (.submit ⟨"in", "out", Binary64.zero false, 1⟩) .first]

/-- The first engine has no job any more, the second one has the job that moved, and the job that
waits is with none. -/
theorem engine_jobs_partition_movedJob :
    let final := (opening (Desk.initial .standard)).run movedJob
    Desk.start .standard (Desk.initial .standard).disk (Desk.initial .standard).ids =
        .ok (Desk.initial .standard)
      ∧ (Desk.initial .standard).disk.load = .ok none
      ∧ ((Desk.initial .standard).ids.between 0 final.desk.ids.issued).Nodup
      ∧ final.log.bindings (Uuid.ofNat 0) = 2
      ∧ (∃ jobs, final.desk.engineJobs "engine" = .ok jobs ∧ jobs.map Job.id = [])
      ∧ (∃ jobs, final.desk.engineJobs "other" = .ok jobs ∧ jobs.map Job.id = [Uuid.ofNat 0])
      ∧ final.desk.engineJobs "ghost" = .error (.unknownEngine "ghost")
      ∧ ∀ name jobs, final.desk.engineJobs name = .ok jobs → Uuid.ofNat 1 ∉ jobs.map Job.id := by
  intro final
  have opened := Desk.start_initial .standard
  have vacant : (Desk.initial .standard).disk.load = .ok none := rfl
  have distinct : ((Desk.initial .standard).ids.between 0 final.desk.ids.issued).Nodup := by
    decide +kernel
  have engines : final.desk.board.engines.keys = ["engine", "other"] := by decide +kernel
  have bindings : final.log.bindings (Uuid.ofNat 0) = 2 := by decide +kernel
  have unbound : ∀ entry ∈ final.log, entry.2.binds (Uuid.ofNat 1) = false := by decide +kernel
  obtain ⟨known, -, unknown, -, never⟩ := engine_jobs_partition opened vacant movedJob distinct
  refine ⟨opened, vacant, distinct, bindings, ?_, ?_, unknown "ghost" (by rw [engines]; decide), ?_⟩
  · obtain ⟨jobs, told, -, own⟩ := known "engine" (by rw [engines]; decide)
    exact ⟨jobs, told, own.trans (by decide +kernel)⟩
  · obtain ⟨jobs, told, -, own⟩ := known "other" (by rw [engines]; decide)
    exact ⟨jobs, told, own.trans (by decide +kernel)⟩
  · exact fun name jobs told member => never (Uuid.ofNat 1) unbound name ⟨jobs, told, member⟩

end Session

end JobDispatch
