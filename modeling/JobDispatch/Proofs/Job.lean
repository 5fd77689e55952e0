import JobDispatch.Job
import JobDispatch.Proofs.Except
import JobDispatch.Proofs.Ledger
set_option autoImplicit false

namespace JobDispatch

namespace FailureOutcome

def isFinal : FailureOutcome → Bool
  | requeued .. => false
  | failedPermanently .. => true

end FailureOutcome

namespace Job

/-- No rule is broken exactly when all four hold. -/
theorem brokenRule?_eq_none_iff (job : Job) : job.brokenRule? = none ↔
    (job.assignedEngine.isSome = true ↔ job.status = .assigned)
      ∧ (job.assignedAt.isSome = true ↔ job.status = .assigned)
      ∧ (job.outputUrl.isSome = true ↔ job.status = .completed)
      ∧ (job.status ≠ .failedPermanently → job.retries ≤ job.maxRetries) := by
  have rule (present : Bool) (status : JobStatus) :
      (present != (job.status == status)) = false ↔ (present = true ↔ job.status = status) := by
    by_cases same : job.status = status <;> cases present <;> simp [same]
  have bound : ¬ (job.status ≠ .failedPermanently ∧ job.maxRetries < job.retries) ↔
      (job.status ≠ .failedPermanently → job.retries ≤ job.maxRetries) := by
    rw [not_and]
    exact forall_congr' fun _ => UInt32.not_lt
  rw [← rule, ← rule, ← rule, ← bound, brokenRule?]
  split
  · simp_all
  · split
    · simp_all
    · split
      · simp_all
      · split <;> simp_all

/-- An engine is on record exactly while the job is assigned. -/
theorem assignedEngine_isSome_iff {job : Job} (ordered : job.brokenRule? = none) :
    job.assignedEngine.isSome = true ↔ job.status = .assigned :=
  ((brokenRule?_eq_none_iff job).1 ordered).1

theorem brokenRule?_submitted (id : Uuid) (request : JobRequest) (now : Time.Instant) :
    (submitted id request now).brokenRule? = none := by
  rw [brokenRule?_eq_none_iff]
  simp [submitted]

theorem brokenRule?_assign {job : Job} (engine : String) (now : Time.Instant)
    (ordered : job.brokenRule? = none) (waiting : job.status = .pending) :
    (job.assign engine now).brokenRule? = none := by
  rw [brokenRule?_eq_none_iff] at ordered ⊢
  obtain ⟨_, _, output, bound⟩ := ordered
  rw [waiting] at output bound
  simpa [assign] using And.intro output (bound (by decide))

theorem brokenRule?_complete {job : Job} (outputUrl : String) (now : Time.Instant)
    (ordered : job.brokenRule? = none) (held : job.status = .assigned) :
    (job.complete outputUrl now).brokenRule? = none := by
  rw [brokenRule?_eq_none_iff] at ordered ⊢
  obtain ⟨_, _, _, bound⟩ := ordered
  rw [held] at bound
  simpa [complete] using bound (by decide)

theorem nextRetries?_eq_some_iff {job : Job} {retries : UInt32} :
    job.nextRetries? = some retries ↔ retries.toNat = job.retries.toNat + 1 := by
  have small := retries.toNat_lt
  simp only [nextRetries?]
  split
  · rename_i room
    have next : (job.retries + 1).toNat = job.retries.toNat + 1 := by
      rw [UInt32.toNat_add, UInt32.toNat_one, Nat.mod_eq_of_lt room]
    rw [Option.some.injEq, ← UInt32.toNat_inj, next, eq_comm]
  · rename_i full
    constructor
    · intro impossible
      cases impossible
    · intro next
      rw [next] at small
      exact absurd small full

/-- The counter of failures is at its end. -/
def IsWorn (job : Job) : Prop := job.retries = 4294967295

instance : DecidablePred IsWorn := fun job => inferInstanceAs (Decidable (job.retries = _))

/-- Only a job that is worn cannot fail once more. -/
theorem nextRetries?_eq_none_iff {job : Job} : job.nextRetries? = none ↔ job.IsWorn := by
  have small := job.retries.toNat_lt
  have last : job.IsWorn ↔ job.retries.toNat = 4294967295 := UInt32.toNat_inj.symm
  simp only [nextRetries?, ite_eq_right_iff, reduceCtorEq, imp_false, Nat.not_lt, UInt32.size, last]
  omega

section Failed

variable {job : Job} {retries : UInt32} {reason : String} {now : Time.Instant}

/-- The outcome that says that the job waits again. -/
theorem failed_of_le (within : retries ≤ job.maxRetries) :
    job.failed retries reason now = (.requeued retries job.maxRetries,
      { job with
        retries := retries, assignedEngine := none, assignedAt := none, updatedAt := now,
        status := .pending, errorMessage := some reason }) := by
  simp only [failed, if_pos within]

/-- The outcome that says that the job is given up. -/
theorem failed_of_lt (beyond : job.maxRetries < retries) :
    job.failed retries reason now = (.failedPermanently retries (finalReason retries reason),
      { job with
        retries := retries, assignedEngine := none, assignedAt := none, updatedAt := now,
        status := .failedPermanently, errorMessage := some (finalReason retries reason) }) := by
  simp only [failed, if_neg (UInt32.not_le.2 beyond)]

variable (job retries reason now)

/-- Whatever a failure does to the state, these fields change and no others. -/
theorem failed_record : ∃ status message, (job.failed retries reason now).2 =
    { job with
      retries := retries, assignedEngine := none, assignedAt := none, updatedAt := now,
      status := status, errorMessage := some message } := by
  rcases UInt32.le_or_lt retries job.maxRetries with within | beyond
  · exact ⟨_, _, congrArg Prod.snd (failed_of_le within)⟩
  · exact ⟨_, _, congrArg Prod.snd (failed_of_lt beyond)⟩

/-- A failure ends the assignment. -/
theorem status_failed_ne_assigned : (job.failed retries reason now).2.status ≠ .assigned := by
  rcases UInt32.le_or_lt retries job.maxRetries with within | beyond
  · rw [failed_of_le within]
    simp
  · rw [failed_of_lt beyond]
    simp

end Failed

theorem fail_eq_ok {job : Job} {reason : String} {now : Time.Instant}
    {result : FailureOutcome × Job} : job.fail reason now = .ok result ↔
      job.status = .assigned
        ∧ ∃ retries, job.nextRetries? = some retries ∧ result = job.failed retries reason now := by
  simp only [fail]
  split
  · rename_i held
    cases counted : job.nextRetries? <;> simp [held, eq_comm]
  · rename_i idle
    simp [idle]

/-- A failure is refused for a job that is not assigned, and breaks down over one that is worn. -/
theorem fail_eq_error {job : Job} {reason : String} {now : Time.Instant} {setback : Setback} :
    job.fail reason now = .error setback ↔
      job.status ≠ .assigned
          ∧ setback = .refused (.jobStatus job.id job.status .assigned)
        ∨ job.status = .assigned ∧ job.IsWorn ∧ setback = .broken .counterFull := by
  simp only [fail]
  split
  · rename_i held
    rw [← nextRetries?_eq_none_iff]
    cases counted : job.nextRetries? <;> simp [held, eq_comm]
  · rename_i idle
    simp [idle, eq_comm]

theorem fail_of_worn {job : Job} (held : job.status = .assigned) (worn : job.IsWorn)
    (reason : String) (now : Time.Instant) :
    job.fail reason now = .error (.broken .counterFull) :=
  fail_eq_error.2 (.inr ⟨held, worn, rfl⟩)

/-- What was asked for in a submission, and when, is the same. -/
structure SameOrder (first second : Job) : Prop where
  id : first.id = second.id
  sourceUrl : first.sourceUrl = second.sourceUrl
  targetCodec : first.targetCodec = second.targetCodec
  jobSize : first.jobSize = second.jobSize
  maxRetries : first.maxRetries = second.maxRetries
  createdAt : first.createdAt = second.createdAt

theorem SameOrder.refl (job : Job) : SameOrder job job := ⟨rfl, rfl, rfl, rfl, rfl, rfl⟩

theorem SameOrder.trans {first second third : Job} (left : SameOrder first second)
    (right : SameOrder second third) : SameOrder first third :=
  ⟨left.id.trans right.id, left.sourceUrl.trans right.sourceUrl,
    left.targetCodec.trans right.targetCodec, left.jobSize.trans right.jobSize,
    left.maxRetries.trans right.maxRetries, left.createdAt.trans right.createdAt⟩

theorem sameOrder_failed (job : Job) (retries : UInt32) (reason : String) (now : Time.Instant) :
    SameOrder job (job.failed retries reason now).2 := by
  obtain ⟨status, message, same⟩ := job.failed_record retries reason now
  rw [same]
  exact ⟨rfl, rfl, rfl, rfl, rfl, rfl⟩

theorem brokenRule?_failed {job : Job} (retries : UInt32) (reason : String) (now : Time.Instant)
    (ordered : job.brokenRule? = none) (held : job.status = .assigned) :
    (job.failed retries reason now).2.brokenRule? = none := by
  rw [brokenRule?_eq_none_iff] at ordered ⊢
  obtain ⟨_, _, output, _⟩ := ordered
  rw [held] at output
  have unwritten : job.outputUrl = none := by simpa using output
  rcases UInt32.le_or_lt retries job.maxRetries with within | beyond
  · simp [failed_of_le within, unwritten, within]
  · simp [failed_of_lt beyond, unwritten]

end Job

theorem requireText_eq_ok {field : TextField} {text : String} {done : Unit} :
    requireText field text = .ok done ↔ Text.isBlankText text = false := by
  simp only [requireText]
  split <;> simp_all

theorem requireAmount_eq_ok {field : AmountField} {value : Binary64} {done : Unit} :
    requireAmount field value = .ok done ↔ value.isNonNegative = true := by
  simp only [requireAmount]
  split <;> simp_all

/-- An amount is finite. -/
theorem isFinite_of_isNonNegative {value : Binary64} (amount : value.isNonNegative = true) :
    value.isFinite = true := by
  simp only [Binary64.isNonNegative, Bool.and_eq_true] at amount
  exact amount.1

theorem JobRequest.check_eq_ok {request : JobRequest} : request.check = .ok () ↔
    Text.isBlankText request.sourceUrl = false ∧ Text.isBlankText request.targetCodec = false
      ∧ request.jobSize.isNonNegative = true := by
  simp only [check, bind_eq_ok, requireText_eq_ok, requireAmount_eq_ok, exists_const]

namespace JobLedger

theorem find_eq_ok {jobs : JobLedger} {id : Uuid} {job : Job} :
    find jobs id = .ok job ↔ jobs.get? id = some job := by
  simp only [find]
  split <;> simp_all

theorem submit_eq_ok {jobs after : JobLedger} {id : Uuid} {request : JobRequest}
    {now : Time.Instant} : submit jobs id request now = .ok after ↔
      request.check = .ok () ∧ after = jobs.put id (Job.submitted id request now) := by
  simp only [submit, bind_eq_ok, pure, Except.pure, Except.ok.injEq]
  constructor
  · rintro ⟨⟨⟩, accepted, filed⟩
    exact ⟨accepted, filed.symm⟩
  · rintro ⟨accepted, filed⟩
    exact ⟨(), accepted, filed.symm⟩

theorem assign_eq_ok {jobs after : JobLedger} {id : Uuid} {engine : String} {now : Time.Instant} :
    assign jobs id engine now = .ok after ↔ ∃ job, jobs.get? id = some job ∧ job.status = .pending
      ∧ after = jobs.update id (Job.assign engine now) := by
  simp only [assign, bind_eq_ok, find_eq_ok]
  constructor
  · rintro ⟨job, found, rest⟩
    split at rest
    · rename_i waiting
      cases rest
      exact ⟨job, found, waiting, rfl⟩
    · cases rest
  · rintro ⟨job, found, waiting, changed⟩
    refine ⟨job, found, ?_⟩
    rw [if_pos waiting, changed]
    rfl

theorem complete_eq_ok {jobs after : JobLedger} {id : Uuid} {outputUrl : String}
    {now : Time.Instant} : complete jobs id outputUrl now = .ok after ↔
      ∃ job, jobs.get? id = some job ∧ job.status = .assigned
        ∧ Text.isBlankText outputUrl = false
        ∧ after = jobs.update id (Job.complete outputUrl now) := by
  simp only [complete, bind_eq_ok, find_eq_ok, requireText_eq_ok]
  constructor
  · rintro ⟨job, found, ⟨⟩, written, rest⟩
    split at rest
    · rename_i held
      cases rest
      exact ⟨job, found, held, written, rfl⟩
    · cases rest
  · rintro ⟨job, found, held, written, changed⟩
    refine ⟨job, found, (), written, ?_⟩
    rw [if_pos held, changed]
    rfl

theorem fail_eq_ok {jobs after : JobLedger} {id : Uuid} {reason : String} {now : Time.Instant}
    {outcome : FailureOutcome} : fail jobs id reason now = .ok (outcome, after) ↔
      ∃ job retries, jobs.get? id = some job ∧ job.status = .assigned
        ∧ job.nextRetries? = some retries
        ∧ outcome = (job.failed retries reason now).1
        ∧ after = jobs.update id fun _ => (job.failed retries reason now).2 := by
  simp only [fail, bind_eq_ok, Setback.lift_eq_ok, find_eq_ok, Job.fail_eq_ok]
  constructor
  · rintro ⟨job, found, _, ⟨held, retries, counted, rfl⟩, rest⟩
    cases rest
    exact ⟨job, retries, found, held, counted, rfl, rfl⟩
  · rintro ⟨job, retries, found, held, counted, outcome_eq, changed⟩
    refine ⟨job, found, _, ⟨held, retries, counted, rfl⟩, ?_⟩
    rw [outcome_eq, changed]
    rfl

/-- The oldest job that waits is on file and waits. -/
theorem firstPending_spec {jobs : JobLedger} {job : Job} (first : firstPending jobs = some job) :
    job.status = .pending ∧ ∃ key, jobs.get? key = some job := by
  have waiting := List.find?_some first
  have member := List.mem_of_find?_eq_some first
  exact ⟨of_decide_eq_true waiting, Ledger.mem_records_iff.1 member⟩

end JobLedger

end JobDispatch
