import JobDispatch.Proofs.Board.Binding
import JobDispatch.Proofs.Board.Growth
import JobDispatch.Proofs.Board.Precedence
import Mathlib.Data.List.Dedup
set_option autoImplicit false

namespace JobDispatch

open Time

theorem Job.isFinal_failed (job : Job) (retries : UInt32) (reason : String) (now : Instant) :
    let after := job.failed retries reason now
    after.1.isFinal = true ∧ after.2.status = .failedPermanently
      ∨ after.1.isFinal = false ∧ after.2.status = .pending := by
  rcases UInt32.le_or_lt retries job.maxRetries with within | beyond
  · rw [failed_of_le within]
    exact .inr ⟨rfl, rfl⟩
  · rw [failed_of_lt beyond]
    exact .inl ⟨rfl, rfl⟩

namespace JobLedger

variable {jobs : JobLedger} {id : Uuid} {job : Job}

/-- Every job stands in one state. -/
theorem size_eq_add_countOf (jobs : JobLedger) : jobs.size = jobs.countOf .pending
    + jobs.countOf .assigned + jobs.countOf .completed + jobs.countOf .failedPermanently := by
  rw [Ledger.size_eq_length_records]
  simp only [countOf]
  induction jobs.records with
  | nil => rfl
  | cons job records ih =>
    simp only [List.length_cons, List.countP_cons, ih]
    cases job.status <;> simp <;> omega

theorem countOf_update (found : jobs.get? id = some job) (change : Job → Job)
    (status : JobStatus) :
    JobLedger.countOf (jobs.update id change) status + (if job.status = status then 1 else 0) =
      jobs.countOf status + if (change job).status = status then 1 else 0 := by
  simpa only [countOf, decide_eq_true_eq] using
    Ledger.countP_records_update found change fun job => decide (job.status = status)

theorem countOf_put (job : Job) (fresh : jobs.get? id = none) (status : JobStatus) :
    JobLedger.countOf (jobs.put id job) status =
      jobs.countOf status + if job.status = status then 1 else 0 := by
  simpa only [countOf, decide_eq_true_eq] using
    Ledger.countP_records_put job fresh fun job => decide (job.status = status)

end JobLedger

/-- Every engine stands in one state. -/
theorem EnginePool.size_eq_add_countOf (engines : EnginePool) :
    engines.size = engines.countOf .idle + engines.countOf .busy := by
  rw [Ledger.size_eq_length_records]
  simp only [countOf]
  induction engines.records with
  | nil => rfl
  | cons engine records ih =>
    simp only [List.length_cons, List.countP_cons, ih]
    cases engine.status <;> simp <;> omega

namespace Event

/-- A job was given to an engine. -/
def isBinding : Event → Bool
  | bound _ _ => true
  | _ => false

def isCompletion : Event → Bool
  | completed _ => true
  | _ => false

def isFailure : Event → Bool
  | failed _ _ => true
  | _ => false

/-- A job was given up. -/
def isFinalFailure : Event → Bool
  | failed _ outcome => outcome.isFinal
  | _ => false

def reporter? : Event → Option String
  | reported report => some report.engineId
  | _ => none

end Event

namespace Log

/-- How many events of a kind were accepted. -/
def total (log : Log) (kind : Event → Bool) : Nat := log.countP fun entry => kind entry.2

/-- The engines that reported, in order, as often as they did. -/
def reporters (log : Log) : List String := log.filterMap fun entry => entry.2.reporter?

theorem total_step (log : Log) (now : Instant) (event : Event) (kind : Event → Bool) :
    total (log ++ [(now, event)]) kind = log.total kind + if kind event then 1 else 0 := by
  rw [total, List.countP_append, List.countP_singleton]
  rfl

theorem reporters_step (log : Log) (now : Instant) (event : Event) :
    reporters (log ++ [(now, event)]) = log.reporters ++ event.reporter?.toList := by
  rw [reporters, List.filterMap_append]
  cases told : event.reporter? <;> simp [told, reporters]

end Log

/-- The numbers of the jobs that are done, given up and under way are those that the log tells. -/
structure JobLedger.Balanced (log : Log) (jobs : JobLedger) : Prop where
  completed : jobs.countOf .completed = log.total Event.isCompletion
  givenUp : jobs.countOf .failedPermanently = log.total Event.isFinalFailure
  assigned : jobs.countOf .assigned + log.total Event.isCompletion + log.total Event.isFailure =
    log.total Event.isBinding

/-- A job that is neither done nor given up changes its state, and the event tells of it. -/
theorem JobLedger.Balanced.update {log : Log} {jobs : JobLedger} (balanced : jobs.Balanced log)
    {id : Uuid} {job : Job} (found : jobs.get? id = some job) (change : Job → Job) (now : Instant)
    {event : Event} (living : job.status.isTerminal = false)
    (completed : (change job).status = .completed ↔ event.isCompletion = true)
    (givenUp : (change job).status = .failedPermanently ↔ event.isFinalFailure = true)
    (assigned : (if (change job).status = .assigned then 1 else 0)
        + (if event.isCompletion then 1 else 0) + (if event.isFailure then 1 else 0) =
      (if job.status = .assigned then 1 else 0) + if event.isBinding then 1 else 0) :
    JobLedger.Balanced (log ++ [(now, event)]) (jobs.update id change) := by
  have counts := JobLedger.countOf_update found change
  have undone : job.status ≠ .completed := fun same => by simp [same, JobStatus.isTerminal] at living
  have kept : job.status ≠ .failedPermanently := fun same => by
    simp [same, JobStatus.isTerminal] at living
  constructor
  · have moved := counts .completed
    rw [if_neg undone] at moved
    simp only [Log.total_step, ← completed, ← balanced.completed]
    exact moved
  · have moved := counts .failedPermanently
    rw [if_neg kept] at moved
    simp only [Log.total_step, ← givenUp, ← balanced.givenUp]
    exact moved
  · have moved := counts .assigned
    have before := balanced.assigned
    simp only [Log.total_step]
    omega

namespace Board

variable {now : Instant} {board next : Board} {event : Event} {log : Log}

/-- Every step keeps jobs and log in balance, as long as a job that is brought in is new. -/
theorem Change.balanced (change : Change now board event next)
    (new : ∀ id, event = .submitted id → board.jobs.get? id = none)
    (balanced : board.jobs.Balanced log) : next.jobs.Balanced (log ++ [(now, event)]) := by
  have quiet (jobs : JobLedger) (silent : event.isBinding = false ∧ event.isCompletion = false
      ∧ event.isFailure = false ∧ event.isFinalFailure = false)
      (same : ∀ status, status ≠ .pending → jobs.countOf status = board.jobs.countOf status) :
      jobs.Balanced (log ++ [(now, event)]) := by
    obtain ⟨binding, completion, failure, final⟩ := silent
    constructor
    all_goals
      rw [same _ (by decide)]
      simp only [Log.total_step, binding, completion, failure, final]
    · exact balanced.completed
    · exact balanced.givenUp
    · exact balanced.assigned
  cases change with
  | @submitted id request accepted =>
    refine quiet _ ⟨rfl, rfl, rfl, rfl⟩ fun status busy => ?_
    rw [JobLedger.countOf_put _ (new id rfl), if_neg fun same => busy same.symm]
    rfl
  | registered accepted unknown => exact quiet _ ⟨rfl, rfl, rfl, rfl⟩ fun _ _ => rfl
  | refreshed accepted known => exact quiet _ ⟨rfl, rfl, rfl, rfl⟩ fun _ _ => rfl
  | measured amount known => exact quiet _ ⟨rfl, rfl, rfl, rfl⟩ fun _ _ => rfl
  | bound first chosen found waiting known idle =>
    refine balanced.update found _ now (by rw [waiting]; rfl) ?_ ?_ ?_
    · simp [Job.assign, Event.isCompletion]
    · simp [Job.assign, Event.isFinalFailure]
    · simp [Job.assign, waiting, Event.isCompletion, Event.isFailure, Event.isBinding]
  | completed found held written =>
    refine balanced.update found _ now (by rw [held]; rfl) ?_ ?_ ?_
    · simp [Job.complete, Event.isCompletion]
    · simp [Job.complete, Event.isFinalFailure]
    · simp [Job.complete, held, Event.isCompletion, Event.isFailure, Event.isBinding]
  | @failed id job retries reason found held counted =>
    refine balanced.update found (fun _ => (job.failed retries reason now).2) now
      (by rw [held]; rfl) ?_ ?_ ?_
    all_goals rcases job.isFinal_failed retries reason now with ⟨final, status⟩ | ⟨again, status⟩
    · simp [status, Event.isCompletion]
    · simp [status, Event.isCompletion]
    · simp [status, final, Event.isFinalFailure]
    · simp [status, again, Event.isFinalFailure]
    · simp [status, held, Event.isCompletion, Event.isFailure, Event.isBinding]
    · simp [status, held, Event.isCompletion, Event.isFailure, Event.isBinding]

theorem History.balanced (history : History empty log board) (fresh : Fresh empty log) :
    board.jobs.Balanced log := by
  refine history.induction (fun log board => board.jobs.Balanced log) fresh ⟨rfl, rfl, rfl⟩ ?_
  intro log board now event next _ change new earlier
  exact change.balanced new earlier

/-- An engine is on file exactly when it has reported. -/
def Enrolled (log : Log) (engines : EnginePool) : Prop :=
  ∀ name, name ∈ engines.keys ↔ name ∈ log.reporters

/-- Only a report brings in an engine. -/
theorem Change.enrolled (change : Change now board event next)
    (enrolled : Enrolled log board.engines) :
    Enrolled (log ++ [(now, event)]) next.engines := by
  intro name
  have before := enrolled name
  have quiet (silent : event.reporter? = none) :
      name ∈ board.engines.keys ↔ name ∈ Log.reporters (log ++ [(now, event)]) := by
    rw [Log.reporters_step, silent, Option.toList_none, List.append_nil]
    exact before
  cases change with
  | submitted accepted => exact quiet rfl
  | @registered report accepted unknown =>
    rw [Ledger.keys_put, if_neg (Ledger.get?_eq_none_iff.1 unknown), Log.reporters_step,
      List.mem_append, List.mem_append, before]
    rfl
  | @refreshed report engine accepted known =>
    have filed : report.engineId ∈ board.engines.keys := Ledger.mem_keys_of_get? known
    rw [Ledger.keys_update, Log.reporters_step, List.mem_append, ← before]
    constructor
    · exact .inl
    · rintro (there | own)
      · exact there
      · cases List.mem_singleton.1 own
        exact filed
  | measured amount known =>
    rw [Ledger.keys_update]
    exact quiet rfl
  | bound first chosen found waiting known idle =>
    rw [Ledger.keys_update]
    exact quiet rfl
  | completed found held written =>
    rw [EnginePool.keys_releaseFrom]
    exact quiet rfl
  | failed found held =>
    rw [EnginePool.keys_releaseFrom]
    exact quiet rfl

theorem History.enrolled (history : History empty log board) : Enrolled log board.engines := by
  generalize none : empty = start at history
  induction history with
  | start =>
    subst none
    exact fun name => Iff.rfl
  | step before change ih => exact change.enrolled ih

theorem Enrolled.size_eq {engines : EnginePool} (enrolled : Enrolled log engines) :
    engines.size = log.reporters.dedup.length := by
  have same : engines.keys.Perm log.reporters.dedup := by
    refine (List.perm_ext_iff_of_nodup engines.nodup (List.nodup_dedup _)).2 fun name => ?_
    rw [List.mem_dedup]
    exact enrolled name
  rw [← same.length_eq]
  simp [Ledger.size, Ledger.keys]

/-- Where bindings have two sides, as many engines hold a job as there are jobs assigned. -/
theorem Matched.countP_holding (matched : board.Matched) (storable : board.Storable) :
    board.engines.records.countP (fun engine => engine.currentJob.isSome) =
      board.jobs.countOf .assigned := by
  -- the ids that engines hold and those of assigned jobs are the same, and none comes twice
  have held (id : Uuid) : id ∈ board.engines.records.filterMap Engine.currentJob ↔
      id ∈ (board.jobs.records.filter fun job => job.status = .assigned).map Job.id := by
    simp only [List.mem_filterMap, List.mem_map, List.mem_filter, decide_eq_true_eq,
      Ledger.mem_records_iff]
    constructor
    · rintro ⟨engine, ⟨name, known⟩, current⟩
      obtain ⟨job, found, assigned⟩ := matched.holding name engine id known current
      obtain ⟨own, ordered, _⟩ := storable.jobs id job found
      refine ⟨job, ⟨⟨id, found⟩, ?_⟩, own.symm⟩
      exact (Job.assignedEngine_isSome_iff ordered).1 (by rw [assigned]; rfl)
    · rintro ⟨job, ⟨⟨key, found⟩, status⟩, own⟩
      obtain ⟨same, ordered, _⟩ := storable.jobs key job found
      obtain ⟨name, assigned⟩ := Option.isSome_iff_exists.1
        ((Job.assignedEngine_isSome_iff ordered).2 status)
      obtain ⟨engine, known, current⟩ := matched.held key job name found assigned
      exact ⟨engine, ⟨name, known⟩, current.trans (by rw [same, own])⟩
  have engines : (board.engines.records.filterMap Engine.currentJob).Nodup := by
    rw [List.Nodup, List.pairwise_filterMap]
    refine (List.pairwise_map.1 storable.keyed.nodup_engines).imp_of_mem ?_
    intro first second left right apart id current other otherCurrent same
    subst same
    obtain ⟨name, known⟩ := Ledger.mem_records_iff.1 left
    obtain ⟨otherName, otherKnown⟩ := Ledger.mem_records_iff.1 right
    obtain ⟨job, found, assigned⟩ := matched.holding name first id known current
    obtain ⟨_, again, otherAssigned⟩ :=
      matched.holding otherName second id otherKnown otherCurrent
    cases found.symm.trans again
    cases assigned.symm.trans otherAssigned
    cases known.symm.trans otherKnown
    exact apart rfl
  have jobs : ((board.jobs.records.filter fun job => job.status = .assigned).map Job.id).Nodup :=
    storable.keyed.nodup_jobs.sublist (List.filter_sublist.map Job.id)
  have same := ((List.perm_ext_iff_of_nodup engines jobs).2 held).length_eq
  rwa [List.length_filterMap_eq_countP, List.length_map, ← List.countP_eq_length_filter] at same

end Board

end JobDispatch
