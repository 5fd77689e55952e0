import JobDispatch.Proofs.Board.Attempt
set_option autoImplicit false

/- What a board can undergo, one step at a time. Every operation that is carried out is one of these
steps or a chain of them, so that what each step keeps is kept by all operations. -/
namespace JobDispatch

open Time

/-- What was accepted at a board. -/
inductive Event where
  | submitted (job : Uuid)
  | reported (report : Heartbeat)
  | measured (engine : String)
  | bound (job : Uuid) (engine : String)
  | completed (job : Uuid)
  | failed (job : Uuid) (outcome : FailureOutcome)
deriving DecidableEq, Repr

def Event.job? : Event → Option Uuid
  | submitted job => some job
  | bound job _ => some job
  | completed job => some job
  | failed job _ => some job
  | _ => none

namespace Board

/-- One step of a board. Each case names all that the step asks for and all that it changes. -/
inductive Change (now : Instant) (board : Board) : Event → Board → Prop where
  | submitted {id : Uuid} {request : JobRequest} (accepted : request.check = .ok ()) :
    Change now board (.submitted id)
      ⟨board.jobs.put id (Job.submitted id request now), board.engines⟩
  | registered {report : Heartbeat} (accepted : report.IsAcceptable)
      (unknown : board.engines.get? report.engineId = none) :
    Change now board (.reported report)
      ⟨board.jobs, board.engines.put report.engineId (Engine.registered report now)⟩
  | refreshed {report : Heartbeat} {engine : Engine} (accepted : report.IsAcceptable)
      (known : board.engines.get? report.engineId = some engine) :
    Change now board (.reported report)
      ⟨board.jobs, board.engines.update report.engineId (Engine.refresh report now)⟩
  | measured {id : String} {engine : Engine} {time : Binary64}
      (amount : time.isNonNegative = true) (known : board.engines.get? id = some engine) :
    Change now board (.measured id)
      ⟨board.jobs,
        board.engines.update id fun engine => { engine with benchmarkTime := some time }⟩
  | bound {rule : Pairing} {job : Job} {engine : Engine}
      (first : board.jobs.firstPending = some job)
      (chosen : rule.choose job.jobSize (rule.candidates board.engines now) = some engine)
      (found : board.jobs.get? job.id = some job) (waiting : job.status = .pending)
      (known : board.engines.get? engine.id = some engine) (idle : engine.status = .idle) :
    Change now board (.bound job.id engine.id)
      ⟨board.jobs.update job.id (Job.assign engine.id now),
        board.engines.update engine.id (Engine.bind job.id)⟩
  | completed {id : Uuid} {job : Job} {outputUrl : String}
      (found : board.jobs.get? id = some job) (held : job.status = .assigned)
      (written : Text.isBlankText outputUrl = false) :
    Change now board (.completed id)
      ⟨board.jobs.update id (Job.complete outputUrl now),
        board.engines.releaseFrom id job.assignedEngine⟩
  | failed {id : Uuid} {job : Job} {retries : UInt32} {reason : String}
      (found : board.jobs.get? id = some job) (held : job.status = .assigned)
      (counted : job.nextRetries? = some retries) :
    Change now board (.failed id (job.failed retries reason now).1)
      ⟨board.jobs.update id fun _ => (job.failed retries reason now).2,
        board.engines.releaseFrom id job.assignedEngine⟩

theorem change_of_submit {board : Board} {jobs : JobLedger} {id : Uuid} {request : JobRequest}
    {now : Instant} (accepted : board.jobs.submit id request now = .ok jobs) :
    Change now board (.submitted id) { board with jobs := jobs } := by
  obtain ⟨checked, filed⟩ := JobLedger.submit_eq_ok.1 accepted
  subst filed
  exact .submitted checked

theorem change_of_report {board : Board} {engines : EnginePool} {report : Heartbeat}
    {now : Instant} (accepted : board.engines.report report now = .ok engines) :
    Change now board (.reported report) { board with engines := engines } := by
  obtain ⟨acceptable, filed⟩ := EnginePool.report_eq_ok.1 accepted
  subst filed
  cases known : board.engines.get? report.engineId with
  | none => exact .registered acceptable known
  | some engine => exact .refreshed acceptable known

theorem change_of_benchmark {board : Board} {engines : EnginePool} {id : String} {time : Binary64}
    {now : Instant} (accepted : board.engines.benchmark id time = .ok engines) :
    Change now board (.measured id) { board with engines := engines } := by
  obtain ⟨amount, engine, known, filed⟩ := EnginePool.benchmark_eq_ok.1 accepted
  subst filed
  exact .measured amount known

theorem change_of_complete {board after : Board} {id : Uuid} {outputUrl : String} {now : Instant}
    (accepted : board.complete id outputUrl now = .ok after) :
    Change now board (.completed id) after := by
  obtain ⟨job, looked, rest⟩ := bind_eq_ok.1 accepted
  obtain ⟨jobs, completed, equal⟩ := bind_eq_ok.1 rest
  obtain ⟨other, found, held, written, changed⟩ := JobLedger.complete_eq_ok.1 completed
  have same := (JobLedger.find_eq_ok.1 looked).symm.trans found
  cases same
  cases equal
  subst changed
  exact .completed found held written

theorem change_of_fail {board after : Board} {id : Uuid} {reason : String} {now : Instant}
    {outcome : FailureOutcome} (accepted : board.fail id reason now = .ok (outcome, after)) :
    Change now board (.failed id outcome) after := by
  obtain ⟨job, looked, rest⟩ := bind_eq_ok.1 accepted
  obtain ⟨⟨result, jobs⟩, failed, equal⟩ := bind_eq_ok.1 rest
  obtain ⟨other, retries, found, held, counted, told, changed⟩ := JobLedger.fail_eq_ok.1 failed
  have same := (JobLedger.find_eq_ok.1 (Setback.lift_eq_ok.1 looked)).symm.trans found
  cases same
  cases equal
  subst told changed
  exact .failed found held counted

/-- An attempt at a board whose records are under their own ids is never refused. It changes the
board only when it brings a job and an engine together. -/
theorem assignNext_spec {board : Board} (storable : board.Storable) (rule : Pairing)
    (now : Instant) :
    (board.jobs.firstPending = none
        ∧ board.assignNext rule now now = (.ok .noPendingJobs, board))
      ∨ (∃ job, board.jobs.firstPending = some job
        ∧ board.assignNext rule now now = (.ok (.noEligibleEngines job.id), board))
      ∨ ∃ job engine after, board.assignNext rule now now = (.ok (.assigned job engine), after)
        ∧ Change now board (.bound job engine) after := by
  rcases storable.keyed.assignNext_cases rule now now with
    idle | ⟨job, first, _, idle⟩ | ⟨job, engine, first, chosen, bound⟩
  · exact .inl idle
  · exact .inr (.inl ⟨job, first, idle⟩)
  · have fit := storable.keyed.fit first chosen
    exact .inr (.inr ⟨job.id, engine.id, _, bound,
      .bound first chosen fit.found fit.waiting fit.known fit.idle⟩)

/-- Only an attempt that brings a job and an engine together changes the board. -/
theorem eq_of_assignNext_idle {rule : Pairing} {judged now : Instant} {board staged : Board}
    {outcome : AssignmentOutcome} (idle : outcome.isAssigned = false)
    (attempt : board.assignNext rule judged now = (.ok outcome, staged)) : staged = board := by
  simp only [assignNext] at attempt
  split at attempt
  · cases attempt
    rfl
  · split at attempt
    · cases attempt
      rfl
    · split at attempt
      · cases attempt
      · split at attempt
        · cases attempt
        · cases attempt
          cases idle

/-- Every step of a board leaves it such that it can be kept. -/
theorem Change.storable {now : Instant} {board after : Board} {event : Event}
    (change : Change now board event after) (storable : board.Storable) : after.Storable := by
  cases change with
  | @submitted id request accepted =>
    have size := isFinite_of_isNonNegative (JobRequest.check_eq_ok.1 accepted).2.2
    exact ⟨Ledger.forall_put storable.jobs ⟨rfl, Job.brokenRule?_submitted id request now, size⟩,
      storable.engines⟩
  | @registered report accepted unknown =>
    have capacity := isFinite_of_isNonNegative accepted.2
    have unmeasured : (Engine.registered report now).benchmarkTime = none := rfl
    exact ⟨storable.jobs,
      Ledger.forall_put storable.engines ⟨rfl, capacity, by simp [unmeasured]⟩⟩
  | @refreshed report engine accepted known =>
    have capacity := isFinite_of_isNonNegative accepted.2
    refine ⟨storable.jobs, Ledger.forall_update storable.engines ?_⟩
    intro engine known
    obtain ⟨own, finite⟩ := storable.engines _ engine known
    exact ⟨own, capacity, finite.2⟩
  | @measured id engine time amount known =>
    refine ⟨storable.jobs, Ledger.forall_update storable.engines ?_⟩
    intro engine known
    obtain ⟨own, finite⟩ := storable.engines id engine known
    refine ⟨own, finite.1, ?_⟩
    intro other same
    cases same
    exact isFinite_of_isNonNegative amount
  | @bound rule job engine first chosen found waiting known idle =>
    refine ⟨Ledger.forall_update storable.jobs ?_, Ledger.forall_update storable.engines ?_⟩
    · intro other same
      cases found.symm.trans same
      obtain ⟨own, ordered, finite⟩ := storable.jobs _ job found
      exact ⟨own, Job.brokenRule?_assign engine.id now ordered waiting, finite⟩
    · intro engine known
      exact storable.engines _ engine known
  | @completed id job outputUrl found held written =>
    refine ⟨Ledger.forall_update storable.jobs ?_,
      EnginePool.forall_releaseFrom storable.engines fun _ _ known => known⟩
    intro other same
    cases found.symm.trans same
    obtain ⟨own, ordered, finite⟩ := storable.jobs id job found
    exact ⟨own, Job.brokenRule?_complete outputUrl now ordered held, finite⟩
  | @failed id job retries reason found held counted =>
    refine ⟨Ledger.forall_update storable.jobs ?_,
      EnginePool.forall_releaseFrom storable.engines fun _ _ known => known⟩
    intro other same
    obtain ⟨own, ordered, finite⟩ := storable.jobs id job found
    obtain ⟨status, message, same⟩ := job.failed_record retries reason now
    have kept := Job.brokenRule?_failed retries reason now ordered held
    rw [same] at kept ⊢
    exact ⟨own, kept, finite⟩

/-- No step takes a job away, and only a submission brings one in. -/
theorem Change.filed {now : Instant} {board after : Board} {event : Event}
    (change : Change now board event after) {id : Uuid} {job : Job}
    (found : after.jobs.get? id = some job) :
    (∃ old, board.jobs.get? id = some old) ∨ event = .submitted id := by
  have updated {key : Uuid} {step : Job → Job}
      (found : (board.jobs.update key step).get? id = some job) :
      ∃ old, board.jobs.get? id = some old := by
    rcases Ledger.get?_update_eq_some.1 found with ⟨old, same, there, _⟩ | ⟨_, there⟩
    · exact ⟨old, same ▸ there⟩
    · exact ⟨job, there⟩
  cases change with
  | submitted accepted =>
    rcases Ledger.get?_put_eq_some.1 found with ⟨same, _⟩ | ⟨_, there⟩
    · exact .inr (by rw [same])
    · exact .inl ⟨job, there⟩
  | registered accepted unknown => exact .inl ⟨job, found⟩
  | refreshed accepted known => exact .inl ⟨job, found⟩
  | measured amount known => exact .inl ⟨job, found⟩
  | bound => exact .inl (updated found)
  | completed => exact .inl (updated found)
  | failed => exact .inl (updated found)

/-- No job is touched but the one that a step is about. -/
theorem Change.get?_job_of_ne {now : Instant} {board after : Board} {event : Event}
    (change : Change now board event after) {id : Uuid} (apart : event.job? ≠ some id) :
    after.jobs.get? id = board.jobs.get? id := by
  have other {subject : Uuid} (about : event.job? = some subject) : id ≠ subject := by
    intro same
    exact apart (by rw [about, same])
  cases change with
  | submitted accepted => exact (Ledger.get?_put ..).trans (if_neg (other rfl))
  | registered accepted unknown => rfl
  | refreshed accepted known => rfl
  | measured amount known => rfl
  | bound => exact Ledger.get?_update_of_ne _ (other rfl)
  | completed => exact Ledger.get?_update_of_ne _ (other rfl)
  | failed => exact Ledger.get?_update_of_ne _ (other rfl)

/-- A job stays on file with what was asked for, unless another one is brought in under its id. -/
theorem Change.sameOrder {now : Instant} {board after : Board} {event : Event}
    (change : Change now board event after) {id : Uuid} {job : Job}
    (found : board.jobs.get? id = some job)
    (new : ∀ id, event = .submitted id → board.jobs.get? id = none) :
    ∃ later, after.jobs.get? id = some later ∧ job.SameOrder later := by
  by_cases about : event.job? = some id
  · cases change with
    | submitted accepted =>
      cases about
      rw [new id rfl] at found
      cases found
    | registered accepted unknown => cases about
    | refreshed accepted known => cases about
    | measured amount known => cases about
    | bound =>
      cases about
      exact ⟨_, Ledger.get?_update_self _ found, rfl, rfl, rfl, rfl, rfl, rfl⟩
    | completed =>
      cases about
      exact ⟨_, Ledger.get?_update_self _ found, rfl, rfl, rfl, rfl, rfl, rfl⟩
    | @failed _ other retries reason there held counted =>
      cases about
      cases found.symm.trans there
      exact ⟨_, Ledger.get?_update_self _ found, job.sameOrder_failed retries reason now⟩
  · exact ⟨job, (change.get?_job_of_ne about).trans found, .refl job⟩

end Board

end JobDispatch
