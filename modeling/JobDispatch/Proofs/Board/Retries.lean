import JobDispatch.Proofs.Board.History
set_option autoImplicit false

/- The retries of a job against the log: every failure is counted once, every assignment is either
still under way, done, or used up by a failure. -/
namespace JobDispatch

open Time

namespace Event

def binds (job : Uuid) : Event → Bool
  | bound other _ => other == job
  | _ => false

def fails (job : Uuid) : Event → Bool
  | failed other _ => other == job
  | _ => false

def completes (job : Uuid) : Event → Bool
  | completed other => other == job
  | _ => false

/-- The job was reported on: it failed or was completed. -/
def reportsOn (job : Uuid) (event : Event) : Bool := event.fails job || event.completes job

end Event

namespace Log

def bindings (log : Log) (job : Uuid) : Nat := log.countP fun entry => entry.2.binds job

def failures (log : Log) (job : Uuid) : Nat := log.countP fun entry => entry.2.fails job

def completions (log : Log) (job : Uuid) : Nat := log.countP fun entry => entry.2.completes job

def reports (log : Log) (job : Uuid) : Nat := log.countP fun entry => entry.2.reportsOn job

theorem reports_eq (log : Log) (job : Uuid) :
    log.reports job = log.failures job + log.completions job := by
  simp only [reports, failures, completions]
  induction log with
  | nil => rfl
  | cons entry log ih =>
    obtain ⟨now, event⟩ := entry
    simp only [List.countP_cons, ih]
    cases event <;> simp [Event.reportsOn, Event.fails, Event.completes] <;> omega

section

variable (log : Log) (now : Instant) (event : Event) (job : Uuid)

theorem bindings_step : bindings (log ++ [(now, event)]) job =
    log.bindings job + if event.binds job then 1 else 0 := by
  rw [bindings, List.countP_append, List.countP_singleton]
  rfl

theorem failures_step : failures (log ++ [(now, event)]) job =
    log.failures job + if event.fails job then 1 else 0 := by
  rw [failures, List.countP_append, List.countP_singleton]
  rfl

theorem completions_step : completions (log ++ [(now, event)]) job =
    log.completions job + if event.completes job then 1 else 0 := by
  rw [completions, List.countP_append, List.countP_singleton]
  rfl

end

/-- An event does not count for a job that it is not about. -/
theorem counts_of_ne (log : Log) (now : Instant) {event : Event} {job : Uuid}
    (apart : event.job? ≠ some job) :
    failures (log ++ [(now, event)]) job = log.failures job
      ∧ bindings (log ++ [(now, event)]) job = log.bindings job
      ∧ completions (log ++ [(now, event)]) job = log.completions job := by
  have silent : event.fails job = false ∧ event.binds job = false
      ∧ event.completes job = false := by
    cases event <;> simp_all [Event.fails, Event.binds, Event.completes, Event.job?]
  simp only [failures_step, bindings_step, completions_step, silent]
  exact ⟨rfl, rfl, rfl⟩

end Log

namespace Board

/-- What the log tells of a job agrees with its record. -/
structure Tally (log : Log) (id : Uuid) (job : Job) : Prop where
  failures : log.failures id = job.retries.toNat
  bindings : log.bindings id = job.retries.toNat
    + if job.status = .assigned ∨ job.status = .completed then 1 else 0
  completions : log.completions id = if job.status = .completed then 1 else 0
  within : job.status ≠ .failedPermanently → job.retries.toNat ≤ job.maxRetries.toNat
  exceeded : job.status = .failedPermanently → job.retries.toNat = job.maxRetries.toNat + 1

/-- The log agrees with all records, and tells nothing of jobs that are not on file. -/
structure Tallied (log : Log) (board : Board) : Prop where
  filed : ∀ id job, board.jobs.get? id = some job → Tally log id job
  unfiled : ∀ id, board.jobs.get? id = none →
    log.failures id = 0 ∧ log.bindings id = 0 ∧ log.completions id = 0

variable {now : Instant} {board next : Board} {event : Event} {log : Log}

theorem Tally.submitted {id : Uuid} (request : JobRequest)
    (none : log.failures id = 0 ∧ log.bindings id = 0 ∧ log.completions id = 0) :
    Tally (log ++ [(now, .submitted id)]) id (.submitted id request now) := by
  obtain ⟨failures, bindings, completions⟩ := none
  constructor
  · rw [Log.failures_step, failures]
    rfl
  · rw [Log.bindings_step, bindings]
    rfl
  · rw [Log.completions_step, completions]
    rfl
  · intro _
    exact Nat.zero_le _
  · intro given
    cases given

theorem Tally.bound {id : Uuid} {job : Job} (tally : Tally log id job) (engine : String)
    (waiting : job.status = .pending) :
    Tally (log ++ [(now, .bound id engine)]) id (job.assign engine now) := by
  obtain ⟨failures, bindings, completions, within, _⟩ := tally
  simp only [waiting] at bindings completions
  constructor
  · rw [Log.failures_step, failures]
    rfl
  · rw [Log.bindings_step, bindings]
    simp [Event.binds, Job.assign]
  · rw [Log.completions_step, completions]
    rfl
  · intro _
    exact within (by rw [waiting]; decide)
  · intro given
    cases given

theorem Tally.completed {id : Uuid} {job : Job} (tally : Tally log id job) (outputUrl : String)
    (held : job.status = .assigned) :
    Tally (log ++ [(now, .completed id)]) id (job.complete outputUrl now) := by
  obtain ⟨failures, bindings, completions, within, _⟩ := tally
  simp only [held] at bindings completions
  constructor
  · rw [Log.failures_step, failures]
    rfl
  · rw [Log.bindings_step, bindings]
    rfl
  · rw [Log.completions_step, completions]
    simp [Event.completes, Job.complete]
  · intro _
    exact within (by rw [held]; decide)
  · intro given
    cases given

theorem Tally.failed {id : Uuid} {job : Job} {retries : UInt32} (tally : Tally log id job)
    (reason : String) (held : job.status = .assigned) (counted : job.nextRetries? = some retries) :
    Tally (log ++ [(now, .failed id (job.failed retries reason now).1)]) id
      (job.failed retries reason now).2 := by
  obtain ⟨failures, bindings, completions, within, _⟩ := tally
  have below := within (by rw [held]; decide)
  simp only [held] at bindings completions
  have next := Job.nextRetries?_eq_some_iff.1 counted
  have failed : Event.fails id (.failed id (job.failed retries reason now).1) = true := by
    simp [Event.fails]
  have steps := Log.failures_step log now (.failed id (job.failed retries reason now).1) id
  rw [failed, if_pos rfl, failures] at steps
  have same : Log.bindings (log ++ [(now, .failed id (job.failed retries reason now).1)]) id =
      job.retries.toNat + 1 := by
    rw [Log.bindings_step, bindings]
    rfl
  have none : Log.completions (log ++ [(now, .failed id (job.failed retries reason now).1)]) id =
      0 := by
    rw [Log.completions_step, completions]
    rfl
  rcases UInt32.le_or_lt retries job.maxRetries with again | beyond
  · have bound := UInt32.le_iff_toNat_le.1 again
    rw [Job.failed_of_le again] at steps same none ⊢
    constructor
    · rw [steps, next]
    · rw [same, next]
      rfl
    · rw [none]
      rfl
    · intro _
      exact bound
    · intro given
      cases given
  · have bound := UInt32.lt_iff_toNat_lt.1 beyond
    rw [Job.failed_of_lt beyond] at steps same none ⊢
    constructor
    · rw [steps, next]
    · rw [same, next]
      rfl
    · rw [none]
      rfl
    · intro kept
      exact absurd rfl kept
    · intro _
      show retries.toNat = job.maxRetries.toNat + 1
      omega

/-- After a step that is about a job, the log agrees with its record again. -/
theorem Change.tally_of_job? (change : Change now board event next) (tallied : Tallied log board)
    (new : ∀ id, event = .submitted id → board.jobs.get? id = none) {id : Uuid}
    (about : event.job? = some id) :
    ∃ job, next.jobs.get? id = some job ∧ Tally (log ++ [(now, event)]) id job := by
  cases change with
  | @submitted _ request accepted =>
    cases about
    exact ⟨_, (Ledger.get?_put ..).trans (if_pos rfl),
      .submitted request (tallied.unfiled _ (new _ rfl))⟩
  | registered accepted unknown => cases about
  | refreshed accepted known => cases about
  | measured amount known => cases about
  | @bound rule job engine first chosen found waiting known idle =>
    cases about
    exact ⟨_, Ledger.get?_update_self _ found, (tallied.filed _ job found).bound _ waiting⟩
  | @completed _ job outputUrl found held written =>
    cases about
    exact ⟨_, Ledger.get?_update_self _ found, (tallied.filed _ job found).completed _ held⟩
  | @failed _ job retries reason found held counted =>
    cases about
    exact ⟨_, Ledger.get?_update_self _ found,
      (tallied.filed _ job found).failed reason held counted⟩

/-- Every step keeps log and records in agreement. -/
theorem Change.tallied (change : Change now board event next) (tallied : Tallied log board)
    (new : ∀ id, event = .submitted id → board.jobs.get? id = none) :
    Tallied (log ++ [(now, event)]) next := by
  constructor
  · intro id job found
    by_cases about : event.job? = some id
    · obtain ⟨other, there, tally⟩ := change.tally_of_job? tallied new about
      cases found.symm.trans there
      exact tally
    · obtain ⟨failures, bindings, completions⟩ := Log.counts_of_ne log now about
      rw [change.get?_job_of_ne about] at found
      obtain ⟨failed, given, done, within, exceeded⟩ := tallied.filed id job found
      exact ⟨failures.trans failed, bindings.trans given, completions.trans done, within,
        exceeded⟩
  · intro id absent
    by_cases about : event.job? = some id
    · obtain ⟨other, there, _⟩ := change.tally_of_job? tallied new about
      rw [absent] at there
      cases there
    · obtain ⟨failures, bindings, completions⟩ := Log.counts_of_ne log now about
      rw [change.get?_job_of_ne about] at absent
      obtain ⟨failed, given, done⟩ := tallied.unfiled id absent
      exact ⟨failures.trans failed, bindings.trans given, completions.trans done⟩

namespace History

theorem tallied (history : History empty log board) (fresh : Fresh empty log) :
    Tallied log board := by
  refine history.induction Tallied fresh ?_ ?_
  · refine ⟨fun id job found => ?_, fun id _ => ⟨rfl, rfl, rfl⟩⟩
    cases found
  · intro log board now event next _ change new earlier
    exact change.tallied earlier new

/-- There is never more than one assignment that no report has ended, and never a report without an
assignment. -/
theorem reports_le_bindings (history : History empty log board) (fresh : Fresh empty log)
    (id : Uuid) :
    log.reports id ≤ log.bindings id ∧ log.bindings id ≤ log.reports id + 1 := by
  have tallied := history.tallied fresh
  rw [Log.reports_eq]
  cases found : board.jobs.get? id with
  | none =>
    obtain ⟨failures, bindings, completions⟩ := tallied.unfiled id found
    omega
  | some job =>
    obtain ⟨failures, bindings, completions, _, _⟩ := tallied.filed id job found
    cases status : job.status <;> simp [status] at bindings completions <;> omega

/-- Between two reports on a job it was given to an engine. -/
theorem bound_between_reports (history : History empty log board) (fresh : Fresh empty log)
    {id : Uuid} {before between after : Log}
    {first second : Instant × Event} (parts : log = before ++ first :: between ++ second :: after)
    (one : first.2.reportsOn id = true) (two : second.2.reportsOn id = true) :
    ∃ entry ∈ between, entry.2.binds id = true := by
  subst parts
  by_contra unbound
  have none : Log.bindings between id = 0 := by
    rw [Log.bindings, List.countP_eq_zero]
    exact fun entry member binding => unbound ⟨entry, member, binding⟩
  -- the log up to the first report and up to the second one
  have prefixes (front back : Log)
      (cut : before ++ first :: between ++ second :: after = front ++ back) :
      front.reports id ≤ front.bindings id ∧ front.bindings id ≤ front.reports id + 1 := by
    obtain ⟨middle, earlier, _⟩ := history.split cut
    rw [cut] at fresh
    exact earlier.reports_le_bindings (earlier.fresh_split fresh).1 id
  have start := prefixes before (first :: between ++ second :: after) (by simp)
  have stop := prefixes (before ++ first :: between ++ [second]) after (by simp)
  have silent (entry : Instant × Event) (report : entry.2.reportsOn id = true) :
      entry.2.binds id = false := by
    obtain ⟨now, event⟩ := entry
    cases event <;> simp_all [Event.binds, Event.reportsOn, Event.fails, Event.completes]
  simp only [Log.bindings, Log.reports, List.countP_append, List.countP_cons, List.countP_nil,
    one, two, silent first one, silent second two] at start stop none
  simp only [none, if_true, Bool.false_eq_true, if_false] at stop
  omega

/-- A failure is the last one of a job exactly when as many went before it as the job allows. -/
theorem isFinal_iff (history : History empty log board) (fresh : Fresh empty log)
    {id : Uuid} {job : Job} {before after : Log} {outcome : FailureOutcome}
    (parts : log = before ++ (now, .failed id outcome) :: after)
    (found : board.jobs.get? id = some job) :
    outcome.isFinal = true ↔ before.failures id = job.maxRetries.toNat := by
  obtain ⟨middle, earlier, rest⟩ := history.split parts
  rw [parts] at fresh
  obtain ⟨freshBefore, freshRest⟩ := earlier.fresh_split fresh
  have tallied := earlier.tallied freshBefore
  have cut : (now, .failed id outcome) :: after = [(now, .failed id outcome)] ++ after := rfl
  obtain ⟨next, single, _⟩ := rest.split cut
  cases single.change_of_single with
  | @failed _ old retries reason there held counted =>
    obtain ⟨later, still, same⟩ := rest.sameOrder freshRest there
    cases found.symm.trans still
    obtain ⟨failures, _, _, within, _⟩ := tallied.filed id old there
    have below := within (by rw [held]; decide)
    rw [failures, ← same.maxRetries]
    have next := Job.nextRetries?_eq_some_iff.1 counted
    rcases UInt32.le_or_lt retries old.maxRetries with again | beyond
    · have bound := UInt32.le_iff_toNat_le.1 again
      rw [Job.failed_of_le again]
      simp only [FailureOutcome.isFinal, Bool.false_eq_true, false_iff]
      omega
    · have bound := UInt32.lt_iff_toNat_lt.1 beyond
      rw [Job.failed_of_lt beyond]
      simp only [FailureOutcome.isFinal, true_iff]
      omega

end History

end Board

end JobDispatch
