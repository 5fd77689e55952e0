import JobDispatch.Proofs.Board.Retries
set_option autoImplicit false

/- An engine that was given a job holds it until the job is reported on. This asks nothing of the
rest of the board: other engines may be idle with a job on record, and other jobs may be on record
with an engine that does not hold them. -/
namespace JobDispatch

open Time

namespace EnginePool

/-- The engine is on file, busy and bound to the job. -/
def Holds (engines : EnginePool) (name : String) (id : Uuid) : Prop :=
  ∃ engine, engines.get? name = some engine ∧ engine.status = .busy ∧ engine.currentJob = some id

/-- The engine is on file, idle and unbound. -/
def IsFree (engines : EnginePool) (name : String) : Prop :=
  ∃ engine, engines.get? name = some engine ∧ engine.status = .idle ∧ engine.currentJob = none

variable {engines : EnginePool} {name : String} {id : Uuid}

/-- An engine holds one job at most. -/
theorem Holds.unique {other : Uuid} (holds : engines.Holds name id)
    (again : engines.Holds name other) : id = other := by
  obtain ⟨engine, known, _, current⟩ := holds
  obtain ⟨_, same, _, otherCurrent⟩ := again
  cases known.symm.trans same
  exact Option.some.inj (current.symm.trans otherCurrent)

/-- The release of another job passes over an engine that holds this one. -/
theorem Holds.releaseFrom_of_ne {other : Uuid} (holds : engines.Holds name id)
    (apart : other ≠ id) (holder : Option String) :
    EnginePool.Holds (engines.releaseFrom other holder) name id := by
  obtain ⟨engine, known, busy, current⟩ := holds
  have kept : engine.freedFrom other = engine := by
    simp [Engine.freedFrom, current, Ne.symm apart]
  refine ⟨engine, ?_, busy, current⟩
  rw [get?_releaseFrom, known, Option.map_some, kept, ite_self]

/-- The release of the job that an engine holds frees the engine. -/
theorem Holds.isFree_releaseFrom (holds : engines.Holds name id) :
    EnginePool.IsFree (engines.releaseFrom id (some name)) name := by
  obtain ⟨engine, known, _, current⟩ := holds
  have freed : engine.freedFrom id = engine.release := by
    simp [Engine.freedFrom, current]
  refine ⟨engine.release, ?_, rfl, rfl⟩
  rw [get?_releaseFrom, if_pos rfl, known, Option.map_some, freed]

/-- No release binds an engine. -/
theorem IsFree.releaseFrom (free : engines.IsFree name) (other : Uuid) (holder : Option String) :
    EnginePool.IsFree (engines.releaseFrom other holder) name := by
  obtain ⟨engine, known, idle, unbound⟩ := free
  by_cases own : holder = some name
  · refine ⟨engine.freedFrom other, ?_, ?_⟩
    · rw [get?_releaseFrom, if_pos own, known, Option.map_some]
    · simp [Engine.freedFrom, Engine.release, unbound]
  · refine ⟨engine, ?_, idle, unbound⟩
    rw [get?_releaseFrom, if_neg own, known]

end EnginePool

namespace Event

/-- The event ends an assignment. -/
def isReport : Event → Bool
  | completed _ => true
  | failed _ _ => true
  | _ => false

theorem isReport_of_reportsOn {event : Event} {id : Uuid} (reported : event.reportsOn id = true) :
    event.isReport = true := by
  cases event <;> simp_all [reportsOn, fails, completes, isReport]

theorem job?_of_reportsOn {event : Event} {id : Uuid} (reported : event.reportsOn id = true) :
    event.job? = some id := by
  cases event <;> simp_all [reportsOn, fails, completes, job?]

theorem job?_of_binds {event : Event} {id : Uuid} (bound : event.binds id = true) :
    event.job? = some id := by
  cases event <;> simp_all [binds, job?]

/-- A report is on the job that it is about. -/
theorem reportsOn_of_job? {event : Event} {id : Uuid} (report : event.isReport = true)
    (about : event.job? = some id) : event.reportsOn id = true := by
  cases event <;> simp_all [reportsOn, fails, completes, isReport, job?]

end Event

namespace Board

variable {now : Instant} {start board next : Board} {event : Event} {log : Log} {name : String}
  {id : Uuid}

/-- Only a report on the job that an engine holds takes the job from it. -/
theorem Change.holds (change : Change now board event next) (holds : board.engines.Holds name id)
    (other : event.reportsOn id = false) : next.engines.Holds name id := by
  obtain ⟨engine, known, busy, current⟩ := holds
  cases change with
  | submitted accepted => exact ⟨engine, known, busy, current⟩
  | @registered report accepted unknown =>
    refine ⟨engine, Ledger.get?_put_eq_some.2 (.inr ⟨?_, known⟩), busy, current⟩
    intro same
    subst same
    rw [unknown] at known
    cases known
  | @refreshed report reporter accepted there =>
    by_cases own : name = report.engineId
    · subst own
      refine ⟨_, Ledger.get?_update_self _ known, ?_, current⟩
      simp [Engine.refresh, current]
    · exact ⟨engine, (Ledger.get?_update_of_ne _ own).trans known, busy, current⟩
  | @measured measuredName measured time amount there =>
    by_cases own : name = measuredName
    · subst own
      exact ⟨_, Ledger.get?_update_self _ known, busy, current⟩
    · exact ⟨engine, (Ledger.get?_update_of_ne _ own).trans known, busy, current⟩
  | @bound rule job taker first chosen found waiting there idle =>
    -- an engine that takes a job is idle, so it is another one
    have apart : name ≠ taker.id := by
      intro same
      subst same
      cases known.symm.trans there
      rw [busy] at idle
      cases idle
    exact ⟨engine, (Ledger.get?_update_of_ne _ apart).trans known, busy, current⟩
  | @completed otherId job outputUrl found held written =>
    have apart : otherId ≠ id := by
      simpa [Event.reportsOn, Event.fails, Event.completes] using other
    exact EnginePool.Holds.releaseFrom_of_ne ⟨engine, known, busy, current⟩ apart _
  | @failed otherId job retries reason found held counted =>
    have apart : otherId ≠ id := by
      simpa [Event.reportsOn, Event.fails, Event.completes] using other
    exact EnginePool.Holds.releaseFrom_of_ne ⟨engine, known, busy, current⟩ apart _

/-- A report on the job that an engine holds frees the engine. -/
theorem Change.isFree_of_reportsOn (change : Change now board event next) {job : Job}
    (holds : board.engines.Holds name id) (found : board.jobs.get? id = some job)
    (assigned : job.assignedEngine = some name) (reported : event.reportsOn id = true) :
    next.engines.IsFree name := by
  have about := Event.job?_of_reportsOn reported
  cases change with
  | @completed _ other outputUrl there held written =>
    cases about
    cases found.symm.trans there
    rw [assigned]
    exact holds.isFree_releaseFrom
  | @failed _ other retries reason there held counted =>
    cases about
    cases found.symm.trans there
    rw [assigned]
    exact holds.isFree_releaseFrom
  | _ => cases reported

/-- Reports, on whatever job, leave a free engine free. -/
theorem Change.isFree (change : Change now board event next) (free : board.engines.IsFree name)
    (report : event.isReport = true) : next.engines.IsFree name := by
  cases change with
  | completed found held written => exact free.releaseFrom _ _
  | failed found held counted => exact free.releaseFrom _ _
  | _ => cases report

namespace History

theorem holds (history : History start log board) (holds : start.engines.Holds name id)
    (other : ∀ entry ∈ log, entry.2.reportsOn id = false) : board.engines.Holds name id := by
  induction history with
  | start => exact holds
  | step before change ih =>
    rw [List.forall_mem_append, List.forall_mem_singleton] at other
    exact change.holds (ih other.1) other.2

theorem get?_job_of_ne (history : History start log board)
    (apart : ∀ entry ∈ log, entry.2.job? ≠ some id) :
    board.jobs.get? id = start.jobs.get? id := by
  induction history with
  | start => rfl
  | step before change ih =>
    rw [List.forall_mem_append, List.forall_mem_singleton] at apart
    exact (change.get?_job_of_ne apart.2).trans (ih apart.1)

/-- Several reports in a row, one of them on the job that an engine holds, free the engine. -/
theorem isFree (history : History start log board) {job : Job}
    (holds : start.engines.Holds name id) (found : start.jobs.get? id = some job)
    (assigned : job.assignedEngine = some name) (reports : ∀ entry ∈ log, entry.2.isReport = true)
    (reported : ∃ entry ∈ log, entry.2.reportsOn id = true) : board.engines.IsFree name := by
  induction history with
  | start =>
    obtain ⟨entry, member, _⟩ := reported
    cases member
  | @step log board next now event before change ih =>
    rw [List.forall_mem_append, List.forall_mem_singleton] at reports
    by_cases earlier : ∃ entry ∈ log, entry.2.reportsOn id = true
    · exact change.isFree (ih reports.1 earlier) reports.2
    · -- the reports so far were on other jobs, so that this one is the first on the job
      have silent : ∀ entry ∈ log, entry.2.reportsOn id = false := by
        simpa using earlier
      have apart : ∀ entry ∈ log, entry.2.job? ≠ some id := by
        intro entry member about
        have report := Event.reportsOn_of_job? (reports.1 entry member) about
        rw [silent entry member] at report
        cases report
      have last : event.reportsOn id = true := by
        obtain ⟨entry, member, report⟩ := reported
        rcases List.mem_append.1 member with inside | single
        · exact absurd ⟨entry, inside, report⟩ earlier
        · rw [List.mem_singleton] at single
          subst single
          exact report
      exact change.isFree_of_reportsOn (before.holds holds silent)
        ((before.get?_job_of_ne apart).trans found) assigned last

end History

/-- The job is assigned, and was given to an engine in the course of the log. -/
structure Underway (log : Log) (board : Board) (id : Uuid) (job : Job) : Prop where
  found : board.jobs.get? id = some job
  held : job.status = .assigned
  given : ∃ entry ∈ log, entry.2.binds id = true

/-- Every job that was given away in the course of the log and is assigned still is on record with
the engine that it was given to, and that engine holds it. -/
def Secured (log : Log) (board : Board) : Prop :=
  ∀ id job, Underway log board id job → ∃ time name, (time, Event.bound id name) ∈ log
    ∧ job.assignedAt = some time ∧ job.assignedEngine = some name ∧ board.engines.Holds name id

/-- Every step keeps secured what was given away, and secures what it gives away. -/
theorem Change.secured (change : Change now board event next) (secured : Secured log board) :
    Secured (log ++ [(now, event)]) next := by
  rintro id job ⟨found, held, given⟩
  by_cases about : event.job? = some id
  · cases change with
    | submitted accepted =>
      cases about
      rw [Ledger.get?_put, if_pos rfl] at found
      cases found
      cases held
    | registered accepted unknown => cases about
    | refreshed accepted known => cases about
    | measured amount known => cases about
    | @bound rule old engine first chosen there waiting known idle =>
      cases about
      rw [Ledger.get?_update_self _ there] at found
      cases found
      exact ⟨now, engine.id, by simp, rfl, rfl, _, Ledger.get?_update_self _ known, rfl, rfl⟩
    | @completed _ old outputUrl there _ written =>
      cases about
      rw [Ledger.get?_update_self _ there] at found
      cases found
      cases held
    | @failed _ old retries reason there _ counted =>
      cases about
      rw [Ledger.get?_update_self _ there] at found
      cases found
      exact absurd held (old.status_failed_ne_assigned retries reason now)
  · rw [change.get?_job_of_ne about] at found
    have earlier : ∃ entry ∈ log, entry.2.binds id = true := by
      obtain ⟨entry, member, binding⟩ := given
      rcases List.mem_append.1 member with inside | single
      · exact ⟨entry, inside, binding⟩
      · rw [List.mem_singleton] at single
        subst single
        exact absurd (Event.job?_of_binds binding) about
    obtain ⟨time, name, bound, stamped, assigned, holds⟩ := secured id job ⟨found, held, earlier⟩
    have other : event.reportsOn id = false := by
      rw [← Bool.not_eq_true]
      exact fun reported => about (Event.job?_of_reportsOn reported)
    exact ⟨time, name, List.mem_append_left _ bound, stamped, assigned, change.holds holds other⟩

theorem History.secured (history : History start log board) : Secured log board := by
  induction history with
  | start =>
    rintro id job ⟨_, _, entry, member, _⟩
    cases member
  | step before change ih => exact change.secured ih

end Board

end JobDispatch
