import JobDispatch.Board
import JobDispatch.Proofs.Engine
import JobDispatch.Proofs.Pairing
import JobDispatch.Proofs.Snapshot
import JobDispatch.Proofs.Uuid
set_option autoImplicit false

namespace JobDispatch

open Time

namespace JobLedger

/-- The jobs that wait, oldest first. -/
def waiting (jobs : JobLedger) : List Job := jobs.records.filter fun job => job.status = .pending

theorem firstPending_eq_head? (jobs : JobLedger) : jobs.firstPending = jobs.waiting.head? := by
  rw [firstPending, waiting, List.head?_filter]

theorem firstPending_eq_none_iff {jobs : JobLedger} :
    jobs.firstPending = none ↔ jobs.waiting = [] := by
  rw [firstPending_eq_head?, List.head?_eq_none_iff]

theorem length_waiting (jobs : JobLedger) : jobs.waiting.length = jobs.pendingCount := by
  rw [pendingCount, countOf, List.countP_eq_length_filter]
  rfl

end JobLedger

theorem Pairing.candidates_eq_filter (rule : Pairing) (engines : EnginePool) (judged : Instant) :
    rule.candidates engines judged = engines.records.filter fun engine =>
      engine.status = .idle ∧ engine.benchmarkTime.isSome = true
        ∧ (rule.timeout.all fun timeout => engine.isAlive judged timeout) = true := by
  rw [candidates, EnginePool.eligible, List.filter_filter]
  refine List.filter_congr fun engine _ => ?_
  simp only [accepts, Engine.isEligible]
  by_cases idle : engine.status = .idle <;> simp [idle, Bool.and_comm]

namespace Board

/-- Every record is filed under its own id. -/
structure Keyed (board : Board) : Prop where
  jobs : ∀ key job, board.jobs.get? key = some job → key = job.id
  engines : ∀ key engine, board.engines.get? key = some engine → key = engine.id

theorem Storable.keyed {board : Board} (storable : board.Storable) : board.Keyed :=
  ⟨fun key job found => (storable.jobs key job found).1,
    fun key engine found => (storable.engines key engine found).1⟩

/-- The keys of the jobs are the ids in their records. -/
theorem Keyed.jobKeys {board : Board} (keyed : board.Keyed) :
    board.jobs.keys = board.jobs.records.map Job.id :=
  Ledger.keys_eq_map_records keyed.jobs

/-- The keys of the engines are the ids in their records. -/
theorem Keyed.engineKeys {board : Board} (keyed : board.Keyed) :
    board.engines.keys = board.engines.records.map Engine.id :=
  Ledger.keys_eq_map_records keyed.engines

theorem Keyed.nodup_jobs {board : Board} (keyed : board.Keyed) :
    (board.jobs.records.map Job.id).Nodup :=
  keyed.jobKeys ▸ board.jobs.nodup

theorem Keyed.nodup_engines {board : Board} (keyed : board.Keyed) :
    (board.engines.records.map Engine.id).Nodup :=
  keyed.engineKeys ▸ board.engines.nodup

theorem keyed_iff_entries {board : Board} : board.Keyed ↔
    (∀ entry ∈ board.jobs.entries, entry.1 = entry.2.id)
      ∧ ∀ entry ∈ board.engines.entries, entry.1 = entry.2.id := by
  constructor
  · rintro ⟨jobs, engines⟩
    exact ⟨fun entry member => jobs _ _ (Ledger.get?_eq_some_iff.2 member),
      fun entry member => engines _ _ (Ledger.get?_eq_some_iff.2 member)⟩
  · rintro ⟨jobs, engines⟩
    exact ⟨fun key job found => jobs (key, job) (Ledger.get?_eq_some_iff.1 found),
      fun key engine found => engines (key, engine) (Ledger.get?_eq_some_iff.1 found)⟩

instance (board : Board) : Decidable board.Keyed := decidable_of_iff _ keyed_iff_entries.symm

variable {board : Board} {rule : Pairing} {judged : Instant} {job : Job} {engine : Engine}

/-- What an attempt looks for: the job waits, the engine could take it, and both are on file under
their own ids. -/
structure Fit (board : Board) (rule : Pairing) (judged : Instant) (job : Job) (engine : Engine) :
    Prop where
  found : board.jobs.get? job.id = some job
  waiting : job.status = .pending
  known : board.engines.get? engine.id = some engine
  eligible : engine.isEligible = true
  accepted : rule.accepts judged engine = true

theorem Fit.idle (fit : board.Fit rule judged job engine) : engine.status = .idle := by
  have eligible := fit.eligible
  simp only [Engine.isEligible, Bool.and_eq_true, decide_eq_true_eq] at eligible
  exact eligible.1

theorem Keyed.fit (keyed : board.Keyed) (first : board.jobs.firstPending = some job)
    (chosen : rule.choose job.jobSize (rule.candidates board.engines judged) = some engine) :
    board.Fit rule judged job engine := by
  obtain ⟨waiting, jobKey, jobFiled⟩ := JobLedger.firstPending_spec first
  obtain ⟨eligible, accepted, engineKey, engineFiled⟩ := Pairing.choose_spec chosen
  exact ⟨keyed.jobs jobKey job jobFiled ▸ jobFiled, waiting,
    keyed.engines engineKey engine engineFiled ▸ engineFiled, eligible, accepted⟩

/-- The board after a job and an engine were brought together. -/
def paired (board : Board) (job : Uuid) (engine : String) (now : Instant) : Board :=
  ⟨board.jobs.update job (Job.assign engine now), board.engines.update engine (Engine.bind job)⟩

theorem keyed_paired (keyed : board.Keyed) (job : Uuid) (engine : String) (now : Instant) :
    (board.paired job engine now).Keyed :=
  ⟨Ledger.forall_update keyed.jobs fun record found => keyed.jobs job record found,
    Ledger.forall_update keyed.engines fun record found => keyed.engines engine record found⟩

/-- An attempt that finds a job and an engine brings them together. -/
theorem Keyed.assignNext_eq_paired (keyed : board.Keyed)
    (first : board.jobs.firstPending = some job)
    (chosen : rule.choose job.jobSize (rule.candidates board.engines judged) = some engine)
    (now : Instant) : board.assignNext rule judged now =
      (.ok (.assigned job.id engine.id), board.paired job.id engine.id now) := by
  have fit := keyed.fit first chosen
  have assigned : board.jobs.assign job.id engine.id now =
      .ok (board.jobs.update job.id (Job.assign engine.id now)) :=
    JobLedger.assign_eq_ok.2 ⟨job, fit.found, fit.waiting, rfl⟩
  have taken : board.engines.bind engine.id job.id =
      .ok (board.engines.update engine.id (Engine.bind job.id)) :=
    EnginePool.bind_engine_eq_ok.2 ⟨engine, fit.known, fit.idle, rfl⟩
  simp only [assignNext, first, chosen, assigned, taken, paired]

/-- What an attempt comes to, by the jobs that wait and the engines that could take one. -/
theorem Keyed.assignNext_cases (keyed : board.Keyed) (rule : Pairing) (judged now : Instant) :
    (board.jobs.firstPending = none
        ∧ board.assignNext rule judged now = (.ok .noPendingJobs, board))
      ∨ (∃ job, board.jobs.firstPending = some job ∧ rule.candidates board.engines judged = []
        ∧ board.assignNext rule judged now = (.ok (.noEligibleEngines job.id), board))
      ∨ ∃ job engine, board.jobs.firstPending = some job
        ∧ rule.choose job.jobSize (rule.candidates board.engines judged) = some engine
        ∧ board.assignNext rule judged now =
          (.ok (.assigned job.id engine.id), board.paired job.id engine.id now) := by
  cases first : board.jobs.firstPending with
  | none => exact .inl ⟨rfl, by simp only [assignNext, first]⟩
  | some job =>
    cases chosen : rule.choose job.jobSize (rule.candidates board.engines judged) with
    | none =>
      exact .inr (.inl ⟨job, rfl, Pairing.choose_eq_none_iff.1 chosen,
        by simp only [assignNext, first, chosen]⟩)
    | some engine =>
      exact .inr (.inr ⟨job, engine, rfl, chosen, keyed.assignNext_eq_paired first chosen now⟩)

/-- An attempt comes to nothing, and changes nothing, exactly when no job waits or no engine could
take the oldest one that does. Otherwise it gives this job to the last of the slowest engines if the
job is small, and to the first of the fastest ones if it is not; both are stamped and bound, and all
else is as it was. -/
theorem attempt_pairs_oldest_with_best (keyed : board.Keyed) (rule : Pairing)
    (judged now : Instant) :
    let waiting := board.jobs.records.filter fun job => job.status = .pending
    let able := board.engines.records.filter fun engine =>
      engine.status = .idle ∧ engine.benchmarkTime.isSome = true
        ∧ (rule.timeout.all fun timeout => engine.isAlive judged timeout) = true
    let attempt := board.assignNext rule judged now
    (attempt.1 = .ok .noPendingJobs ↔ waiting = [])
      ∧ (∀ id, attempt.1 = .ok (.noEligibleEngines id) ↔
        waiting.head?.map Job.id = some id ∧ able = [])
      ∧ (waiting = [] ∨ able = [] → attempt.2 = board)
      ∧ ∀ job, waiting.head? = some job → able ≠ [] → ∃ engine,
        (if job.jobSize.lt rule.threshold then (allSlowest able).getLast?
          else (allFastest able).head?) = some engine
        ∧ attempt.1 = .ok (.assigned job.id engine.id)
        ∧ (∃ front back, board.jobs.entries = front ++ (job.id, job) :: back
          ∧ attempt.2.jobs.entries = front ++ (job.id,
            { job with
              status := .assigned
              assignedEngine := some engine.id
              lastEngine := some engine.id
              assignedAt := some now
              updatedAt := now }) :: back)
        ∧ ∃ front back, board.engines.entries = front ++ (engine.id, engine) :: back
          ∧ attempt.2.engines.entries = front ++ (engine.id,
            { engine with status := .busy, currentJob := some job.id }) :: back := by
  intro waiting able attempt
  have same : able = rule.candidates board.engines judged :=
    (rule.candidates_eq_filter board.engines judged).symm
  rcases keyed.assignNext_cases rule judged now with
    ⟨none, idle⟩ | ⟨oldest, first, none, idle⟩ | ⟨oldest, engine, first, chosen, bound⟩
  · have empty : waiting = [] := JobLedger.firstPending_eq_none_iff.1 none
    have told : attempt = (.ok .noPendingJobs, board) := idle
    simp [told, empty]
  · have head : waiting.head? = some oldest := (JobLedger.firstPending_eq_head? _).symm.trans first
    have some : waiting ≠ [] := by
      intro empty
      rw [empty] at head
      cases head
    have told : attempt = (.ok (.noEligibleEngines oldest.id), board) := idle
    rw [← same] at none
    simp [told, none, some, head]
  · have head : waiting.head? = some oldest := (JobLedger.firstPending_eq_head? _).symm.trans first
    have some : waiting ≠ [] := by
      intro empty
      rw [empty] at head
      cases head
    have told : attempt = (.ok (.assigned oldest.id engine.id),
      board.paired oldest.id engine.id now) := bound
    have able_ne : able ≠ [] := by
      intro empty
      rw [← same, empty, Pairing.choose_eq_none_iff.2 rfl] at chosen
      cases chosen
    have fit := keyed.fit first chosen
    rw [← same, Pairing.choose_eq] at chosen
    refine ⟨by simp [told, some], by simp [told, able_ne], by simp [some, able_ne], ?_⟩
    intro job oldestHead _
    cases head.symm.trans oldestHead
    obtain ⟨front, back, jobs⟩ := List.append_of_mem (Ledger.get?_eq_some_iff.1 fit.found)
    obtain ⟨ahead, behind, engines⟩ := List.append_of_mem (Ledger.get?_eq_some_iff.1 fit.known)
    refine ⟨engine, chosen, by rw [told], ⟨front, back, jobs, ?_⟩, ahead, behind, engines, ?_⟩
    · rw [told]
      exact Ledger.entries_update_of_split jobs _
    · rw [told]
      exact Ledger.entries_update_of_split engines _

/-- A board with a small job and four idle engines: the benchmarks of two of them are the same
pattern that is no number, those of the others are the two zeros. -/
def tied (time : Instant) : Board :=
  let engine (name : String) (benchmark : Binary64) : String × Engine :=
    (name, ⟨name, .idle, Binary64.zero false, time, some benchmark, none⟩)
  { jobs := ⟨[(Uuid.ofNat 1, Job.submitted (Uuid.ofNat 1)
      ⟨"in", "out", Binary64.zero false, 1⟩ time)], by simp⟩
    engines := ⟨[engine "first" (Binary64.notANumber false), engine "plus" (Binary64.zero false),
      engine "second" (Binary64.notANumber false), engine "minus" (Binary64.zero true)],
      by simp [engine]⟩ }

theorem attempt_pairs_oldest_with_best_tied :
    let time : Instant := ⟨0, 0, by decide, by decide⟩
    (tied time).Keyed
      ∧ ((tied time).assignNext ⟨Binary64.infinity false, some 1⟩ time time).1 =
        .ok (.assigned (Uuid.ofNat 1) "second") := by
  intro time
  have keyed : (tied time).Keyed := by decide
  obtain ⟨engine, chosen, told, _⟩ := (attempt_pairs_oldest_with_best keyed
    ⟨Binary64.infinity false, some 1⟩ time time).2.2.2 _ rfl (by decide)
  have last : engine.id = "second" :=
    Option.some.inj ((congrArg (Option.map Engine.id) chosen).symm.trans (by decide))
  rw [last] at told
  exact ⟨keyed, told⟩

end Board

end JobDispatch
