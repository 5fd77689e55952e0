import JobDispatch.Proofs.Board.Commuting
set_option autoImplicit false

/- What is wrong with an operation at a board. The reasons for which an operation is refused exclude
each other: a job is looked up before anything is checked, a number is checked before its engine is
looked up, and of several inputs the first that is out of order counts. Only a failure of a worn job
breaks down, and nothing else is wrong with it then. -/
namespace JobDispatch

open Time Desk

section Inputs

variable {refusal : Refusal}

theorem requireText_eq_error {field : TextField} {text : String} :
    requireText field text = .error refusal ↔
      Text.isBlankText text = true ∧ refusal = .input (.blank field) := by
  by_cases blank : Text.isBlankText text = true <;> simp [requireText, blank, eq_comm]

theorem requireAmount_eq_error {field : AmountField} {value : Binary64} :
    requireAmount field value = .error refusal ↔
      value.isNonNegative = false ∧ refusal = .input (.notAnAmount field value) := by
  by_cases amount : value.isNonNegative = true <;> simp [requireAmount, amount, eq_comm]

theorem find_job_eq_error {jobs : JobLedger} {id : Uuid} :
    jobs.find id = .error refusal ↔ jobs.get? id = none ∧ refusal = .unknownJob id := by
  cases known : jobs.get? id <;> simp [JobLedger.find, known, eq_comm]

theorem find_engine_eq_error {engines : EnginePool} {id : String} :
    engines.find id = .error refusal ↔ engines.get? id = none ∧ refusal = .unknownEngine id := by
  cases known : engines.get? id <;> simp [EnginePool.find, known, eq_comm]

theorem check_status_eq_error {α : Type} {job : Job} {id : Uuid} {accepted : α} :
    (if job.status = .assigned then Except.ok accepted
      else .error (.jobStatus id job.status .assigned)) = .error refusal ↔
      job.status ≠ .assigned ∧ refusal = .jobStatus id job.status .assigned := by
  by_cases held : job.status = .assigned <;> simp [held, eq_comm]

end Inputs

namespace Operation

/-- Somebody asks for the operation and gives it something to take in. -/
def takesInput : Operation → Bool
  | assign => false
  | reclaim => false
  | _ => true

/-- The operation is refused at the board for this reason, whatever the disk does. -/
inductive Fault (board : Board) : Operation → Refusal → Prop where
  | noSource {request : JobRequest} (blank : Text.isBlankText request.sourceUrl = true) :
      Fault board (submit request) (.input (.blank .sourceUrl))
  | noCodec {request : JobRequest} (source : Text.isBlankText request.sourceUrl = false)
      (blank : Text.isBlankText request.targetCodec = true) :
      Fault board (submit request) (.input (.blank .targetCodec))
  | noSize {request : JobRequest} (source : Text.isBlankText request.sourceUrl = false)
      (codec : Text.isBlankText request.targetCodec = false)
      (amount : request.jobSize.isNonNegative = false) :
      Fault board (submit request) (.input (.notAnAmount .jobSize request.jobSize))
  | noName {report : Heartbeat} (blank : Text.isBlankText report.engineId = true) :
      Fault board (heartbeat report) (.input (.blank .engineId))
  | noCapacity {report : Heartbeat} (name : Text.isBlankText report.engineId = false)
      (amount : report.storageCapacity.isNonNegative = false) :
      Fault board (heartbeat report) (.input (.notAnAmount .storageCapacity report.storageCapacity))
  | noTime {engine : String} {time : Binary64} (amount : time.isNonNegative = false) :
      Fault board (benchmark engine time) (.input (.notAnAmount .benchmarkTime time))
  | unknownEngine {engine : String} {time : Binary64} (amount : time.isNonNegative = true)
      (unknown : board.engines.get? engine = none) :
      Fault board (benchmark engine time) (.unknownEngine engine)
  | unknownCompleted {id : Uuid} {outputUrl : String} (unknown : board.jobs.get? id = none) :
      Fault board (complete id outputUrl) (.unknownJob id)
  | noOutput {id : Uuid} {outputUrl : String} {job : Job} (known : board.jobs.get? id = some job)
      (blank : Text.isBlankText outputUrl = true) :
      Fault board (complete id outputUrl) (.input (.blank .outputUrl))
  | completedIdly {id : Uuid} {outputUrl : String} {job : Job}
      (known : board.jobs.get? id = some job) (output : Text.isBlankText outputUrl = false)
      (idle : job.status ≠ .assigned) :
      Fault board (complete id outputUrl) (.jobStatus id job.status .assigned)
  | unknownFailed {id : Uuid} {reason : String} (unknown : board.jobs.get? id = none) :
      Fault board (fail id reason) (.unknownJob id)
  | failedIdly {id : Uuid} {reason : String} {job : Job} (known : board.jobs.get? id = some job)
      (idle : job.status ≠ .assigned) :
      Fault board (fail id reason) (.jobStatus id job.status .assigned)

/-- The operation is a failure of a job at the board that is assigned and worn. -/
def WearsOut (board : Board) : Operation → Prop
  | fail id _ => ∃ job, board.jobs.get? id = some job ∧ job.status = .assigned ∧ job.IsWorn
  | _ => False

end Operation

namespace JobRequest

variable {request : JobRequest} {refusal : Refusal} {board : Board}

theorem check_eq_error_iff_fault :
    request.check = .error refusal ↔ (Operation.submit request).Fault board refusal := by
  simp only [check, bind_eq_error, requireText_eq_error, requireText_eq_ok, requireAmount_eq_error,
    exists_const]
  constructor
  · rintro (⟨blank, same⟩ | ⟨source, ⟨blank, same⟩ | ⟨codec, amount, same⟩⟩)
    · subst same
      exact .noSource blank
    · subst same
      exact .noCodec source blank
    · subst same
      exact .noSize source codec amount
  · intro fault
    cases fault with
    | noSource blank => exact .inl ⟨blank, rfl⟩
    | noCodec source blank => exact .inr ⟨source, .inl ⟨blank, rfl⟩⟩
    | noSize source codec amount => exact .inr ⟨source, .inr ⟨codec, amount, rfl⟩⟩

end JobRequest

namespace Board

variable {board : Board} {refusal : Refusal} {id : Uuid}

theorem report_eq_error_iff_fault {report : Heartbeat} (now : Instant) :
    board.engines.report report now = .error refusal ↔
      (Operation.heartbeat report).Fault board refusal := by
  rw [EnginePool.report_eq]
  simp only [bind_eq_error, requireText_eq_error, requireText_eq_ok, requireAmount_eq_error,
    requireAmount_eq_ok, exists_const, pure, Except.pure, reduceCtorEq, and_false, or_false]
  constructor
  · rintro (⟨blank, same⟩ | ⟨name, amount, same⟩)
    · subst same
      exact .noName blank
    · subst same
      exact .noCapacity name amount
  · intro fault
    cases fault with
    | noName blank => exact .inl ⟨blank, rfl⟩
    | noCapacity name amount => exact .inr ⟨name, amount, rfl⟩

theorem benchmark_eq_error_iff_fault {engine : String} {time : Binary64} :
    board.engines.benchmark engine time = .error refusal ↔
      (Operation.benchmark engine time).Fault board refusal := by
  simp only [EnginePool.benchmark, bind_eq_error, requireAmount_eq_error, requireAmount_eq_ok,
    find_engine_eq_error, exists_const, pure, Except.pure, reduceCtorEq, and_false, exists_false,
    or_false]
  constructor
  · rintro (⟨amount, same⟩ | ⟨amount, unknown, same⟩)
    · subst same
      exact .noTime amount
    · subst same
      exact .unknownEngine amount unknown
  · intro fault
    cases fault with
    | noTime amount => exact .inl ⟨amount, rfl⟩
    | unknownEngine amount unknown => exact .inr ⟨amount, unknown, rfl⟩

theorem complete_eq_error_iff_fault {outputUrl : String} (now : Instant) :
    board.complete id outputUrl now = .error refusal ↔
      (Operation.complete id outputUrl).Fault board refusal := by
  cases known : board.jobs.get? id with
  | none =>
    have missing : board.jobs.find id = .error (.unknownJob id) := find_job_eq_error.2 ⟨known, rfl⟩
    simp only [complete, missing, bind, Except.bind]
    constructor
    · rintro ⟨⟩
      exact .unknownCompleted known
    · intro fault
      cases fault <;> simp_all
  | some job =>
    rw [complete_eq known, map_eq_error, bind_eq_error, requireText_eq_error]
    simp only [requireText_eq_ok, exists_const, check_status_eq_error]
    constructor
    · rintro (⟨blank, same⟩ | ⟨output, idle, same⟩)
      · subst same
        exact .noOutput known blank
      · subst same
        exact .completedIdly known output idle
    · intro fault
      cases fault with
      | unknownCompleted unknown => cases unknown.symm.trans known
      | noOutput _ blank => exact .inl ⟨blank, rfl⟩
      | completedIdly found output idle =>
        cases known.symm.trans found
        exact .inr ⟨output, idle, rfl⟩

/-- A failure is refused for its faults, or the job is worn. -/
theorem Keyed.fail_eq_error_iff_fault (keyed : board.Keyed) {reason : String} (now : Instant)
    {setback : Setback} : board.fail id reason now = .error setback ↔
      (∃ refusal, setback = .refused refusal ∧ (Operation.fail id reason).Fault board refusal)
        ∨ setback = .broken .counterFull ∧ (Operation.fail id reason).WearsOut board := by
  cases known : board.jobs.get? id with
  | none =>
    have missing : (liftM (board.jobs.find id) : Except Setback Job) =
        .error (.refused (.unknownJob id)) :=
      Setback.lift_eq_error.2 ⟨_, find_job_eq_error.2 ⟨known, rfl⟩, rfl⟩
    simp only [fail, missing, bind, Except.bind]
    constructor
    · rintro ⟨⟩
      exact .inl ⟨_, rfl, .unknownFailed known⟩
    · rintro (⟨refusal, same, fault⟩ | ⟨_, job, found, _⟩)
      · subst same
        cases fault with
        | unknownFailed _ => rfl
        | failedIdly found _ => cases known.symm.trans found
      · cases known.symm.trans found
  | some job =>
    rw [fail_eq known, map_eq_error, Job.fail_eq_error, ← keyed.jobs id job known]
    constructor
    · rintro (⟨idle, same⟩ | ⟨held, worn, same⟩)
      · exact .inl ⟨_, same, .failedIdly known idle⟩
      · exact .inr ⟨same, job, known, held, worn⟩
    · rintro (⟨refusal, same, fault⟩ | ⟨same, other, found, held, worn⟩)
      · subst same
        cases fault with
        | unknownFailed unknown => cases unknown.symm.trans known
        | failedIdly found idle =>
          cases known.symm.trans found
          exact .inl ⟨idle, rfl⟩
      · cases known.symm.trans found
        exact .inr ⟨held, worn, same⟩

end Board

namespace Operation

/-- The faults of a report are the reasons for which the board refuses it, and there are no others;
it breaks down over a worn job only. -/
theorem transition_eq_error_iff_fault {board : Board} (keyed : board.Keyed) {operation : Operation}
    (input : operation.takesInput = true) {settings : Settings} {id : Uuid} {now : Instant}
    {setback : Setback} : operation.transition settings id now board = .error setback ↔
      (∃ refusal, setback = .refused refusal ∧ operation.Fault board refusal)
        ∨ setback = .broken .counterFull ∧ operation.WearsOut board := by
  -- what only lifts a step of the registries does not break down
  have refuses {α β : Type} {render : β → Answer} {first : Except Refusal α}
      {rest : α → Except Setback (β × Board)} (sound : ¬operation.WearsOut board)
      (faults : ∀ refusal, first = .error refusal ↔ operation.Fault board refusal)
      (goes : ∀ a, first = .ok a → rest a ≠ .error setback) :
      step render (liftM first >>= rest) = .error setback ↔
        (∃ refusal, setback = .refused refusal ∧ operation.Fault board refusal)
          ∨ setback = .broken .counterFull ∧ operation.WearsOut board := by
    rw [step_eq_error, bind_eq_error, Setback.lift_eq_error, or_iff_left, or_iff_left]
    · exact exists_congr fun refusal => by rw [faults, and_comm]
    · exact fun worn => sound worn.2
    · rintro ⟨a, accepted, stopped⟩
      exact goes a (Setback.lift_eq_ok.1 accepted) stopped
  cases operation with
  | submit request =>
    rw [transition]
    refine refuses not_false (fun refusal => ?_) ?_
    · rw [← JobRequest.check_eq_error_iff_fault]
      simp [bind_eq_error, JobLedger.submit, pure, Except.pure]
    · intro jobs _ impossible
      cases impossible
  | heartbeat report =>
    rw [transition]
    refine refuses not_false (fun refusal => Board.report_eq_error_iff_fault now) ?_
    -- an engine that has just reported is on file
    intro engines taken stopped
    obtain ⟨_, same⟩ := EnginePool.report_eq_ok.1 taken
    obtain ⟨engine, known⟩ :=
      Option.isSome_iff_exists.1 (board.engines.isSome_get?_noted report now)
    have there : EnginePool.find engines report.engineId = .ok engine := by
      rw [same]
      exact EnginePool.find_eq_ok.2 known
    rw [there] at stopped
    cases stopped
  | benchmark engine time =>
    rw [transition]
    refine refuses not_false (fun refusal => Board.benchmark_eq_error_iff_fault) ?_
    intro engines _ impossible
    cases impossible
  | complete job outputUrl =>
    rw [transition]
    refine refuses not_false (fun refusal => Board.complete_eq_error_iff_fault now) ?_
    intro after _ impossible
    cases impossible
  | fail job reason =>
    rw [transition, step_eq_error]
    exact keyed.fail_eq_error_iff_fault now
  | assign => cases input
  | reclaim => cases input

end Operation

end JobDispatch
