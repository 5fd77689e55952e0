import JobDispatch.Proofs.Board.Holding
import JobDispatch.Proofs.Board.Operation
set_option autoImplicit false

namespace JobDispatch

open Time

namespace Job

/-- What one step of a board does to a job that is on file. -/
inductive Step (before : Job) : Job → Prop where
  | none : Step before before
  | assign (engine : String) (now : Instant) (waiting : before.status = .pending) :
    Step before (before.assign engine now)
  | complete (outputUrl : String) (now : Instant) (held : before.status = .assigned) :
    Step before (before.complete outputUrl now)
  | fail {retries : UInt32} (reason : String) (now : Instant) (held : before.status = .assigned)
      (counted : before.nextRetries? = some retries) :
    Step before (before.failed retries reason now).2

/-- A job is as it was, or it moved on by one state, and a failure was counted. -/
inductive Moved (before after : Job) : Prop where
  | kept (same : after = before)
  | started (waiting : before.status = .pending) (held : after.status = .assigned)
    (counted : after.retries = before.retries)
  | completed (held : before.status = .assigned) (done : after.status = .completed)
    (counted : after.retries = before.retries)
  | requeued (held : before.status = .assigned) (waiting : after.status = .pending)
    (counted : after.retries.toNat = before.retries.toNat + 1)
  | givenUp (held : before.status = .assigned) (given : after.status = .failedPermanently)
    (counted : after.retries.toNat = before.retries.toNat + 1)

/-- What a job never loses: the order that it came with, the retries that it has used, that it was
tried by some engine, and, once it is done or given up, all of its record. -/
structure Lasts (before after : Job) : Prop where
  order : before.SameOrder after
  retries : before.retries ≤ after.retries
  tried : before.lastEngine.isSome = true → after.lastEngine.isSome = true
  frozen : before.status.isTerminal = true → after = before

theorem Lasts.refl (job : Job) : job.Lasts job :=
  ⟨.refl job, UInt32.le_refl _, fun tried => tried, fun _ => rfl⟩

theorem Lasts.trans {first second third : Job} (left : first.Lasts second)
    (right : second.Lasts third) : first.Lasts third := by
  refine ⟨left.order.trans right.order, UInt32.le_trans left.retries right.retries,
    right.tried ∘ left.tried, fun terminal => ?_⟩
  have same := left.frozen terminal
  subst same
  exact right.frozen terminal

theorem Step.lasts {before after : Job} (step : Step before after) : before.Lasts after := by
  -- only jobs that wait or are assigned are changed
  have living {status : JobStatus} (stands : before.status = status)
      (changing : status.isTerminal = false) :
      before.status.isTerminal = true → after = before := by
    intro terminal
    rw [stands, changing] at terminal
    cases terminal
  cases step with
  | none => exact .refl before
  | assign engine now waiting =>
    exact ⟨⟨rfl, rfl, rfl, rfl, rfl, rfl⟩, UInt32.le_refl _, fun _ => rfl, living waiting rfl⟩
  | complete outputUrl now held =>
    exact ⟨⟨rfl, rfl, rfl, rfl, rfl, rfl⟩, UInt32.le_refl _, fun tried => tried,
      living held rfl⟩
  | @fail retries reason now held counted =>
    have more : before.retries ≤ retries := by
      rw [UInt32.le_iff_toNat_le, nextRetries?_eq_some_iff.1 counted]
      exact Nat.le_succ _
    obtain ⟨status, message, same⟩ := before.failed_record retries reason now
    refine ⟨before.sameOrder_failed retries reason now, ?_, ?_, living held rfl⟩
    · rwa [same]
    · rw [same]
      exact fun tried => tried

theorem Step.moved {before after : Job} (step : Step before after) : before.Moved after := by
  cases step with
  | none => exact .kept rfl
  | assign engine now waiting => exact .started waiting rfl rfl
  | complete outputUrl now held => exact .completed held rfl rfl
  | @fail retries reason now held counted =>
    have next := nextRetries?_eq_some_iff.1 counted
    rcases UInt32.le_or_lt retries before.maxRetries with within | beyond
    · rw [failed_of_le within]
      exact .requeued held rfl next
    · rw [failed_of_lt beyond]
      exact .givenUp held rfl next

end Job

namespace EnginePool

/-- A release changes records in their places. -/
theorem keys_releaseFrom (engines : EnginePool) (job : Uuid) (holder : Option String) :
    (engines.releaseFrom job holder).keys = engines.keys := by
  cases holder with
  | none => rfl
  | some id =>
    simp only [releaseFrom]
    split
    · rfl
    · split
      · exact Ledger.keys_update ..
      · rfl

end EnginePool

namespace Board

variable {now : Instant} {start board next : Board} {event : Event} {log : Log} {id : Uuid}
  {job : Job}

/-- No step moves an id from its place, and a new one comes last. -/
theorem Change.keys_prefix (change : Change now board event next) :
    board.jobs.keys <+: next.jobs.keys ∧ board.engines.keys <+: next.engines.keys := by
  have grown {κ α : Type} [DecidableEq κ] (ledger : Ledger κ α) (key : κ) (record : α) :
      ledger.keys <+: (ledger.put key record).keys := by
    rw [Ledger.keys_put]
    split
    · exact List.prefix_rfl
    · exact List.prefix_append ..
  cases change with
  | submitted accepted => exact ⟨grown .., List.prefix_rfl⟩
  | registered accepted unknown => exact ⟨List.prefix_rfl, grown ..⟩
  | refreshed accepted known =>
    rw [Ledger.keys_update]
    exact ⟨List.prefix_rfl, List.prefix_rfl⟩
  | measured amount known =>
    rw [Ledger.keys_update]
    exact ⟨List.prefix_rfl, List.prefix_rfl⟩
  | bound first chosen found waiting known idle =>
    rw [Ledger.keys_update, Ledger.keys_update]
    exact ⟨List.prefix_rfl, List.prefix_rfl⟩
  | completed found held written =>
    rw [Ledger.keys_update, EnginePool.keys_releaseFrom]
    exact ⟨List.prefix_rfl, List.prefix_rfl⟩
  | failed found held counted =>
    rw [Ledger.keys_update, EnginePool.keys_releaseFrom]
    exact ⟨List.prefix_rfl, List.prefix_rfl⟩

/-- A job stays on file, and a step of the board is a step of the job. -/
theorem Change.job_step (change : Change now board event next)
    (new : ∀ id, event = .submitted id → board.jobs.get? id = none)
    (found : board.jobs.get? id = some job) :
    ∃ later, next.jobs.get? id = some later ∧ job.Step later := by
  by_cases about : event.job? = some id
  · cases change with
    | submitted accepted =>
      cases about
      rw [new id rfl] at found
      cases found
    | registered accepted unknown => cases about
    | refreshed accepted known => cases about
    | measured amount known => cases about
    | @bound rule other engine first chosen there waiting known idle =>
      cases about
      cases found.symm.trans there
      exact ⟨_, Ledger.get?_update_self _ found, .assign engine.id now waiting⟩
    | @completed _ other outputUrl there held written =>
      cases about
      cases found.symm.trans there
      exact ⟨_, Ledger.get?_update_self _ found, .complete outputUrl now held⟩
    | @failed _ other retries reason there held counted =>
      cases about
      cases found.symm.trans there
      exact ⟨_, Ledger.get?_update_self _ found, .fail reason now held counted⟩
  · exact ⟨job, (change.get?_job_of_ne about).trans found, .none⟩

theorem Fresh.of_submittedJobs_eq_nil (none : log.submittedJobs = []) : Fresh start log := by
  constructor
  · rw [none]
    exact List.nodup_nil
  · rw [none]
    simp

namespace History

theorem keys_prefix (history : History start log board) :
    start.jobs.keys <+: board.jobs.keys ∧ start.engines.keys <+: board.engines.keys := by
  induction history with
  | start => exact ⟨List.prefix_rfl, List.prefix_rfl⟩
  | step before change ih =>
    obtain ⟨jobs, engines⟩ := change.keys_prefix
    exact ⟨ih.1.trans jobs, ih.2.trans engines⟩

/-- Over a chain of steps a job loses nothing. -/
theorem lasts (history : History start log board) (fresh : Fresh start log)
    (found : start.jobs.get? id = some job) :
    ∃ later, board.jobs.get? id = some later ∧ job.Lasts later := by
  refine history.induction (fun _ board => ∃ later, board.jobs.get? id = some later
    ∧ job.Lasts later) fresh ⟨job, found, .refl job⟩ ?_
  intro log board now event next _ change new earlier
  obtain ⟨middle, there, before⟩ := earlier
  obtain ⟨later, still, step⟩ := change.job_step new there
  exact ⟨later, still, before.trans step.lasts⟩

/-- A job that is told of once at most makes one step at most. -/
theorem job_step_of_nodup (history : History start log board) (fresh : Fresh start log)
    (once : (log.filterMap fun entry => entry.2.job?).Nodup)
    (found : start.jobs.get? id = some job) :
    ∃ later, board.jobs.get? id = some later ∧ job.Step later := by
  refine history.induction (fun log board => (log.filterMap fun entry => entry.2.job?).Nodup →
    ∃ later, board.jobs.get? id = some later ∧ job.Step later) fresh
    (fun _ => ⟨job, found, .none⟩) ?_ once
  intro log board now event next before change new earlier once
  rw [List.filterMap_append, List.nodup_append] at once
  by_cases about : event.job? = some id
  · -- the log told nothing of the job so far, so that this is its first step
    have unmoved : ∀ entry ∈ log, entry.2.job? ≠ some id := by
      intro entry member told
      exact once.2.2 id (List.mem_filterMap.2 ⟨entry, member, told⟩) id (by simp [about]) rfl
    exact change.job_step new ((before.get?_job_of_ne unmoved).trans found)
  · rw [change.get?_job_of_ne about]
    exact earlier once.1

end History

/-- No job is listed twice as assigned since before a time. -/
theorem Storable.nodup_assignedBefore {board : Board} (storable : board.Storable)
    (cutoff : Instant) : (board.jobs.assignedBefore cutoff).Nodup :=
  storable.keyed.nodup_jobs.sublist (List.filter_sublist.map Job.id)

end Board

namespace Operation

/-- The events of one operation tell of each job once at most. -/
theorem nodup_events {settings : Settings} {id : Uuid} {now : Instant} {board staged : Board}
    {operation : Operation} {answer : Answer} (storable : board.Storable)
    (accepted : operation.transition settings id now board = .ok (answer, staged)) :
    ((operation.events answer).filterMap Event.job?).Nodup := by
  cases operation with
  | reclaim =>
    simp only [transition] at accepted
    split at accepted
    · cases accepted
      exact List.nodup_nil
    · split at accepted
      · cases accepted
      · obtain ⟨outcomes, failed, told⟩ := step_eq_ok.1 accepted
        subst told
        have jobs : (reclaim.events (.reclaimed outcomes)).filterMap Event.job? =
            outcomes.map Prod.fst := by
          rw [events, List.filterMap_map, ← List.filterMap_eq_map]
          rfl
        rw [jobs, Board.jobs_of_failAll failed]
        exact storable.nodup_assignedBefore _
  | assign =>
    cases answer with
    | attempted outcome => cases outcome <;> simp [events, Event.job?]
    | _ => exact List.nodup_nil
  | _ => cases answer <;> simp [events, Event.job?, List.filterMap_cons]

end Operation

end JobDispatch
