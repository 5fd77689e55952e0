import JobDispatch.Proofs.Board.Binding
import JobDispatch.Proofs.Board.Growth
import JobDispatch.Proofs.Time.Instant
set_option autoImplicit false

namespace JobDispatch

open Time

namespace Event

def submits (id : Uuid) (event : Event) : Bool := event.submittedJob? == some id

def concerns (id : Uuid) (event : Event) : Bool := event.job? == some id

def isReportOf (name : String) (event : Event) : Bool := (event.reportOf? name).isSome

theorem concerns_of_submits {event : Event} {id : Uuid} (brought : event.submits id = true) :
    event.concerns id = true := by
  cases event <;> simp_all [submits, concerns, submittedJob?, job?]

theorem concerns_of_binds {event : Event} {id : Uuid} (bound : event.binds id = true) :
    event.concerns id = true := by
  simp [concerns, job?_of_binds bound]

end Event

namespace Log

/-- The time of the last entry of a kind. -/
def lastTime? (log : Log) (kind : Event → Bool) : Option Instant :=
  (log.filter fun entry => kind entry.2).getLast?.map Prod.fst

def submissionTimes (log : Log) : List Instant :=
  (log.filter fun entry => entry.2.submittedJob?.isSome).map Prod.fst

/-- No entry is from before an earlier one. -/
def Ordered (log : Log) : Prop := log.Pairwise fun first second => first.1 ≤ second.1

variable {log : Log} {kind : Event → Bool} {time last now : Instant} {event : Event}

theorem lastTime?_step (log : Log) (now : Instant) (event : Event) (kind : Event → Bool) :
    lastTime? (log ++ [(now, event)]) kind =
      if kind event then some now else log.lastTime? kind := by
  rw [lastTime?, List.filter_append, List.getLast?_append]
  cases told : kind event <;> simp [told, lastTime?]

theorem submissionTimes_step (log : Log) (now : Instant) (event : Event) :
    submissionTimes (log ++ [(now, event)]) =
      log.submissionTimes ++ if event.submittedJob?.isSome then [now] else [] := by
  rw [submissionTimes, List.filter_append, List.map_append]
  cases told : event.submittedJob?.isSome <;> simp [told, submissionTimes]

theorem mem_of_lastTime? (told : log.lastTime? kind = some time) :
    ∃ event, (time, event) ∈ log ∧ kind event = true := by
  obtain ⟨⟨time, event⟩, last, same⟩ := Option.map_eq_some_iff.1 told
  cases same
  exact ⟨event, List.mem_filter.1 (List.mem_of_getLast? last)⟩

/-- In an ordered log the last entry of a kind is from no earlier time than any other one. -/
theorem Ordered.le_lastTime? (ordered : log.Ordered) (member : (time, event) ∈ log)
    (told : kind event = true) (latest : log.lastTime? kind = some last) : time ≤ last := by
  induction log using List.reverseRecOn with
  | nil => cases member
  | append_singleton log entry ih =>
    obtain ⟨now, newest⟩ := entry
    obtain ⟨earlier, _, behind⟩ := List.pairwise_append.1 ordered
    rw [lastTime?_step] at latest
    rcases List.mem_append.1 member with old | new
    · split at latest
      · cases latest
        exact behind _ old _ (List.mem_singleton_self _)
      · exact ih earlier old latest
    · cases List.mem_singleton.1 new
      rw [if_pos told] at latest
      cases latest
      exact Instant.le_refl _

theorem Ordered.submissionTimes (ordered : log.Ordered) :
    log.submissionTimes.Pairwise (· ≤ ·) :=
  (ordered.filter _).map Prod.fst fun _ _ order => order

end Log

/-- The times in the record of a job are those that the log tells. -/
structure Job.StampedBy (log : Log) (id : Uuid) (job : Job) : Prop where
  created : log.lastTime? (Event.submits id) = some job.createdAt
  updated : log.lastTime? (Event.concerns id) = some job.updatedAt
  assigned : job.status = .assigned →
    job.assignedAt = some job.updatedAt ∧ log.lastTime? (Event.binds id) = some job.updatedAt

/-- What is about other jobs or none leaves the times of a job alone. -/
theorem Job.StampedBy.quiet {log : Log} {id : Uuid} {job : Job} (stamped : job.StampedBy log id)
    {event : Event} (other : event.job? ≠ some id) (now : Instant) :
    job.StampedBy (log ++ [(now, event)]) id := by
  have silent : event.concerns id = false := by simpa [Event.concerns] using other
  have same {kind : Event → Bool} (included : kind event = true → event.concerns id = true) :
      Log.lastTime? (log ++ [(now, event)]) kind = log.lastTime? kind := by
    rw [Log.lastTime?_step, if_neg]
    exact fun told => absurd (included told) (by simp [silent])
  obtain ⟨created, updated, assigned⟩ := stamped
  refine ⟨(same Event.concerns_of_submits).trans created, (same fun told => told).trans updated, ?_⟩
  rw [same Event.concerns_of_binds]
  exact assigned

/-- A job that moves on without being assigned keeps its time of creation, and is stamped anew. -/
theorem Job.StampedBy.freed {log : Log} {id : Uuid} {job after : Job} {event : Event}
    {now : Instant} (stamped : job.StampedBy log id) (about : event.job? = some id)
    (new : event.submittedJob? = none) (created : after.createdAt = job.createdAt)
    (updated : after.updatedAt = now) (free : after.status ≠ .assigned) :
    after.StampedBy (log ++ [(now, event)]) id := by
  refine ⟨?_, ?_, fun held => absurd held free⟩
  · rw [Log.lastTime?_step, if_neg (by simp [Event.submits, new]), created]
    exact stamped.created
  · rw [Log.lastTime?_step, if_pos (by simp [Event.concerns, about]), updated]

/-- A job that moves on is stamped anew only with another state. -/
theorem Job.Moved.restamped {before after : Job} (moved : before.Moved after) :
    after.updatedAt = before.updatedAt ∨ after.status ≠ before.status := by
  cases moved with
  | kept same => exact .inl (by rw [same])
  | started waiting held _ => exact .inr (by simp [waiting, held])
  | completed held done _ => exact .inr (by simp [held, done])
  | requeued held waiting _ => exact .inr (by simp [held, waiting])
  | givenUp held given _ => exact .inr (by simp [held, given])

namespace Board

/-- The times of all records are those that the log tells, and the jobs stand in the order in which
they were brought in. -/
structure Stamped (log : Log) (board : Board) : Prop where
  jobs : ∀ id job, board.jobs.get? id = some job → job.StampedBy log id
  engines : ∀ name engine, board.engines.get? name = some engine →
    log.lastTime? (Event.isReportOf name) = some engine.lastHeartbeat
  order : board.jobs.records.map Job.createdAt = log.submissionTimes

theorem stamped_empty : Stamped [] empty where
  jobs := fun _ _ found => nomatch found
  engines := fun _ _ found => nomatch found
  order := rfl

variable {log : Log} {board next : Board} {now : Instant} {event : Event}

/-- A step stamps the job that it is about. -/
theorem Change.stamped_jobs (change : Change now board event next) (stamped : Stamped log board)
    {id : Uuid} {job : Job} (found : next.jobs.get? id = some job) :
    job.StampedBy (log ++ [(now, event)]) id := by
  by_cases about : event.job? = some id
  · cases change with
    | @submitted other request accepted =>
      cases about
      rcases Ledger.get?_put_eq_some.1 found with ⟨_, filed⟩ | ⟨apart, _⟩
      · subst filed
        refine ⟨?_, ?_, fun held => nomatch held⟩
        · rw [Log.lastTime?_step, if_pos (by simp [Event.submits, Event.submittedJob?])]
          rfl
        · rw [Log.lastTime?_step, if_pos (by simp [Event.concerns, Event.job?])]
          rfl
      · exact absurd rfl apart
    | registered accepted unknown => cases about
    | refreshed accepted known => cases about
    | measured amount known => cases about
    | @bound rule old engine first chosen there waiting known idle =>
      cases about
      rw [Ledger.get?_update_self _ there] at found
      cases found
      refine ⟨?_, ?_, fun _ => ⟨rfl, ?_⟩⟩
      · rw [Log.lastTime?_step, if_neg (by simp [Event.submits, Event.submittedJob?])]
        exact (stamped.jobs _ old there).created
      · rw [Log.lastTime?_step, if_pos (by simp [Event.concerns, Event.job?])]
        rfl
      · rw [Log.lastTime?_step, if_pos (by simp [Event.binds])]
        rfl
    | @completed _ old outputUrl there held written =>
      cases about
      rw [Ledger.get?_update_self _ there] at found
      cases found
      exact (stamped.jobs id old there).freed rfl rfl rfl rfl (by simp [Job.complete])
    | @failed _ old retries reason there held counted =>
      cases about
      rw [Ledger.get?_update_self _ there] at found
      cases found
      obtain ⟨status, message, same⟩ := old.failed_record retries reason now
      exact (stamped.jobs id old there).freed rfl rfl (by rw [same]) (by rw [same])
        (old.status_failed_ne_assigned retries reason now)
  · rw [change.get?_job_of_ne about] at found
    exact (stamped.jobs id job found).quiet about now

/-- A report stamps its engine, and no other step stamps any. -/
theorem Change.stamped_engines (change : Change now board event next)
    (stamped : Stamped log board) : ∀ name engine, next.engines.get? name = some engine →
      Log.lastTime? (log ++ [(now, event)]) (Event.isReportOf name) =
        some engine.lastHeartbeat := by
  have quiet (silent : ∀ name, event.isReportOf name = false) (name : String) (engine : Engine)
      (known : board.engines.get? name = some engine) :
      Log.lastTime? (log ++ [(now, event)]) (Event.isReportOf name) =
        some engine.lastHeartbeat := by
    rw [Log.lastTime?_step, silent, if_neg Bool.false_ne_true]
    exact stamped.engines name engine known
  -- the engine that reported and the others, whether it is new or not
  have reported {report : Heartbeat} (same : event = .reported report) (name : String) :
      Log.lastTime? (log ++ [(now, event)]) (Event.isReportOf name) =
        if report.engineId = name then some now else log.lastTime? (Event.isReportOf name) := by
    rw [Log.lastTime?_step, same]
    by_cases own : report.engineId = name <;> simp [Event.isReportOf, Event.reportOf?, own]
  cases change with
  | submitted accepted => exact quiet fun _ => rfl
  | @registered report accepted unknown =>
    intro name engine found
    rw [reported rfl]
    rcases Ledger.get?_put_eq_some.1 found with ⟨same, filed⟩ | ⟨apart, there⟩
    · subst same filed
      rw [if_pos rfl]
      rfl
    · rw [if_neg (Ne.symm apart)]
      exact stamped.engines name engine there
  | @refreshed report engine accepted known =>
    intro name engine found
    rw [reported rfl]
    rcases Ledger.get?_update_eq_some.1 found with ⟨old, same, _, filed⟩ | ⟨apart, there⟩
    · subst same filed
      rw [if_pos rfl]
      rfl
    · rw [if_neg (Ne.symm apart)]
      exact stamped.engines name engine there
  | measured amount known =>
    exact Ledger.forall_update (quiet fun _ => rfl) fun engine there =>
      quiet (fun _ => rfl) _ engine there
  | bound first chosen found waiting known idle =>
    exact Ledger.forall_update (quiet fun _ => rfl) fun engine there =>
      quiet (fun _ => rfl) _ engine there
  | completed found held written =>
    exact EnginePool.forall_releaseFrom (quiet fun _ => rfl) fun _ _ known => known
  | failed found held counted =>
    exact EnginePool.forall_releaseFrom (quiet fun _ => rfl) fun _ _ known => known

/-- Only a submission adds to the times of creation, and it adds at the end. -/
theorem Change.stamped_order (change : Change now board event next)
    (new : ∀ id, event = .submitted id → board.jobs.get? id = none)
    (order : board.jobs.records.map Job.createdAt = log.submissionTimes) :
    next.jobs.records.map Job.createdAt = Log.submissionTimes (log ++ [(now, event)]) := by
  rw [Log.submissionTimes_step, ← order]
  cases change with
  | @submitted id request accepted =>
    simp only [Ledger.records, Ledger.entries_put_of_get?_none _ (new id rfl), List.map_append]
    rfl
  | registered accepted unknown => exact (List.append_nil _).symm
  | refreshed accepted known => exact (List.append_nil _).symm
  | measured amount known => exact (List.append_nil _).symm
  | bound first chosen found waiting known idle =>
    refine (Ledger.map_records_update Job.createdAt ?_).trans (List.append_nil _).symm
    exact fun _ _ => rfl
  | completed found held written =>
    refine (Ledger.map_records_update Job.createdAt ?_).trans (List.append_nil _).symm
    exact fun _ _ => rfl
  | @failed id job retries reason found held counted =>
    refine (Ledger.map_records_update Job.createdAt ?_).trans (List.append_nil _).symm
    intro old there
    cases found.symm.trans there
    exact (job.sameOrder_failed retries reason now).createdAt.symm

theorem History.stamped (history : History empty log board) (fresh : Fresh empty log) :
    Stamped log board := by
  refine history.induction Stamped fresh stamped_empty ?_
  intro log board now event next _ change new earlier
  exact ⟨fun id job found => change.stamped_jobs earlier found, change.stamped_engines earlier,
    change.stamped_order new earlier.order⟩

end Board

end JobDispatch
