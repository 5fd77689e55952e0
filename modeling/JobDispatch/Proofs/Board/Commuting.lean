import JobDispatch.Proofs.Board.Operation
set_option autoImplicit false

namespace JobDispatch

open Time

namespace EnginePool

/-- Two engines, or one engine twice, are freed in either order. -/
theorem releaseFrom_comm (engines : EnginePool) (first second : Uuid)
    (firstHolder secondHolder : Option String) :
    (engines.releaseFrom first firstHolder).releaseFrom second secondHolder =
      EnginePool.releaseFrom (engines.releaseFrom second secondHolder) first firstHolder := by
  cases firstHolder with
  | none => rfl
  | some name =>
    cases secondHolder with
    | none => rfl
    | some other =>
      simp only [releaseFrom_some]
      by_cases same : name = other
      · subst same
        rw [Ledger.update_update, Ledger.update_update]
        apply Ledger.update_congr
        intro engine _
        exact engine.freedFrom_comm first second
      · exact Ledger.update_comm engines same _ _

/-- A report to be idle and the release of an engine, of the same one or another, may come in either
order: what the report keeps busy the release frees, and what is free the report leaves free. -/
theorem releaseFrom_noted {report : Heartbeat} (idle : report.status = .idle) (now : Instant)
    (engines : EnginePool) (job : Uuid) (holder : Option String) :
    (engines.noted report now).releaseFrom job holder =
      EnginePool.noted report now (engines.releaseFrom job holder) := by
  cases holder with
  | none => rfl
  | some name =>
    simp only [releaseFrom_some]
    cases known : engines.get? report.engineId with
    | none =>
      rw [noted_unknown known]
      by_cases own : name = report.engineId
      · subst own
        have absent : Ledger.update engines report.engineId (Engine.freedFrom job) = engines :=
          Ledger.update_eq_self fun engine there => by
            rw [known] at there
            cases there
        have free : (Engine.registered report now).freedFrom job =
            Engine.registered report now := by
          simp [Engine.freedFrom, Engine.registered, Engine.release, idle]
        rw [Ledger.update_put_self known, free, absent, noted_unknown known]
      · rw [Ledger.update_put_of_ne known own, noted_unknown]
        rw [Ledger.get?_update_of_ne _ (Ne.symm own), known]
    | some engine =>
      rw [noted_known known]
      by_cases own : name = report.engineId
      · subst own
        rw [noted_known (Ledger.get?_update_self _ known), Ledger.update_update,
          Ledger.update_update]
        apply Ledger.update_congr
        intro other _
        exact Engine.freedFrom_refresh idle now job other
      · have still : (Ledger.update engines name (Engine.freedFrom job)).get? report.engineId =
            some engine := by
          rw [Ledger.get?_update_of_ne _ (Ne.symm own), known]
        rw [noted_known still]
        exact Ledger.update_comm engines (Ne.symm own) _ _

end EnginePool

namespace Board

/-- The board after a report on a job: the record of the job is changed, and the engine that held it
is freed. -/
def settle (id : Uuid) (change : Job → Job) (holder : Option String) (board : Board) : Board :=
  ⟨board.jobs.update id change, board.engines.releaseFrom id holder⟩

theorem get?_settle_of_ne {id other : Uuid} (apart : other ≠ id) (change : Job → Job)
    (holder : Option String) (board : Board) :
    (board.settle id change holder).jobs.get? other = board.jobs.get? other :=
  Ledger.get?_update_of_ne change apart

theorem settle_comm {id other : Uuid} (apart : id ≠ other) (change otherChange : Job → Job)
    (holder otherHolder : Option String) (board : Board) :
    (board.settle id change holder).settle other otherChange otherHolder =
      (board.settle other otherChange otherHolder).settle id change holder := by
  simp only [settle, Ledger.update_comm board.jobs apart,
    EnginePool.releaseFrom_comm board.engines id other]

/-- A report that is refused changes nothing. -/
@[simp] theorem settle_same (id : Uuid) (board : Board) :
    board.settle id (fun job => job) none = board := by
  rw [settle, Ledger.update_eq_self fun _ _ => rfl]
  rfl

variable {board : Board} {id : Uuid} {job : Job}

/-- What a completion comes to is read off the record of its job alone. -/
theorem complete_eq (found : board.jobs.get? id = some job) (outputUrl : String) (now : Instant) :
    board.complete id outputUrl now =
      (requireText .outputUrl outputUrl >>= fun _ =>
        if job.status = .assigned then .ok (Job.complete outputUrl now)
        else .error (.jobStatus id job.status .assigned)).map fun change =>
          board.settle id change job.assignedEngine := by
  have there : board.jobs.find id = .ok job := JobLedger.find_eq_ok.2 found
  cases written : requireText .outputUrl outputUrl with
  | error refusal =>
    simp only [complete, JobLedger.complete, there, written, bind, Except.bind, Except.map]
  | ok =>
    simp only [complete, JobLedger.complete, there, written, bind, Except.bind]
    by_cases held : job.status = .assigned
    · rw [if_pos held, if_pos held]
      rfl
    · rw [if_neg held, if_neg held]
      rfl

/-- So is what a failure comes to. -/
theorem fail_eq (found : board.jobs.get? id = some job) (reason : String) (now : Instant) :
    board.fail id reason now = (job.fail reason now).map fun (outcome, failed) =>
      (outcome, board.settle id (fun _ => failed) job.assignedEngine) := by
  have there : (liftM (board.jobs.find id) : Except Setback Job) = .ok job :=
    Setback.lift_eq_ok.2 (JobLedger.find_eq_ok.2 found)
  cases judged : job.fail reason now with
  | error setback => simp only [fail, JobLedger.fail, there, judged, bind, Except.bind, Except.map]
  | ok failed =>
    simp only [fail, JobLedger.fail, there, judged, bind, Except.bind, Except.map]
    rfl

end Board

namespace Operation

/-- The job that an operation reports on, as done or as failed. -/
def reportedJob? : Operation → Option Uuid
  | complete job _ => some job
  | fail job _ => some job
  | _ => none

/-- The operation does to every board with the given record of a job what the verdict says, which is
found without the board. -/
theorem attempt_of_verdict {α : Type} {operation : Operation} {id : Uuid} {now : Instant}
    {found : Option Job} (render : α → Answer) (verdict : Except Setback (α × (Job → Job)))
    (holder : Option String)
    (decides : ∀ settings fresh (board : Board), board.jobs.get? id = found →
      operation.transition settings fresh now board = step render
        (verdict.map fun (a, change) => (a, board.settle id change holder))) :
    ∃ told change holder, ∀ settings fresh (board : Board), board.jobs.get? id = found →
      operation.attempt settings fresh now board = (told, board.settle id change holder) := by
  cases verdict with
  | error setback =>
    refine ⟨.error setback, fun job => job, none, ?_⟩
    intro settings fresh board same
    rw [attempt, decides settings fresh board same, Board.settle_same]
    rfl
  | ok accepted =>
    refine ⟨.ok (render accepted.1), accepted.2, holder, ?_⟩
    intro settings fresh board same
    rw [attempt, decides settings fresh board same]
    rfl

/-- What a report on a job comes to, accepted or not, is the same at every board that has the same
record of the job. -/
theorem attempt_report {operation : Operation} {id : Uuid}
    (about : operation.reportedJob? = some id) (now : Instant) (found : Option Job) :
    ∃ told change holder, ∀ settings fresh (board : Board), board.jobs.get? id = found →
      operation.attempt settings fresh now board = (told, board.settle id change holder) := by
  cases operation with
  | complete job outputUrl =>
    cases about
    cases found with
    | none =>
      refine attempt_of_verdict (fun _ : Unit => .completed)
        (.error (.refused (.unknownJob id))) none ?_
      intro settings fresh board absent
      simp only [transition, Board.complete, JobLedger.find, absent]
      rfl
    | some job =>
      refine attempt_of_verdict (fun _ : Unit => .completed)
        (liftM (requireText .outputUrl outputUrl >>= fun _ =>
          if job.status = .assigned then .ok ((), Job.complete outputUrl now)
          else .error (.jobStatus id job.status .assigned))) job.assignedEngine ?_
      intro settings fresh board there
      rw [transition, Board.complete_eq there]
      cases requireText .outputUrl outputUrl with
      | error refusal => rfl
      | ok =>
        by_cases held : job.status = .assigned
        · simp only [bind, Except.bind, if_pos held]
          rfl
        · simp only [bind, Except.bind, if_neg held]
          rfl
  | fail job reason =>
    cases about
    cases found with
    | none =>
      refine attempt_of_verdict .failed (.error (.refused (.unknownJob id))) none ?_
      intro settings fresh board absent
      simp only [transition, Board.fail, JobLedger.find, absent]
      rfl
    | some job =>
      refine attempt_of_verdict .failed
        ((job.fail reason now).map fun (outcome, failed) => (outcome, fun _ => failed))
        job.assignedEngine ?_
      intro settings fresh board there
      rw [transition, Board.fail_eq there]
      cases job.fail reason now <;> rfl
  | _ => cases about

/-- Whether a report of an engine is accepted does not depend on the board, and it changes nothing
but the engines. -/
theorem attempt_heartbeat (report : Heartbeat) (now : Instant) :
    (∃ setback, ∀ settings fresh board,
        (heartbeat report).attempt settings fresh now board = (.error setback, board))
      ∨ ∀ settings fresh board, ∃ status,
        (heartbeat report).attempt settings fresh now board =
          (.ok (.reported status), ⟨board.jobs, board.engines.noted report now⟩) := by
  cases named : requireText .engineId report.engineId with
  | error refusal =>
    refine .inl ⟨.refused refusal, fun settings fresh board => ?_⟩
    simp only [attempt, transition, EnginePool.report, named]
    rfl
  | ok =>
    cases measured : requireAmount .storageCapacity report.storageCapacity with
    | error refusal =>
      refine .inl ⟨.refused refusal, fun settings fresh board => ?_⟩
      simp only [attempt, transition, EnginePool.report, named, measured]
      rfl
    | ok =>
      refine .inr fun settings fresh board => ?_
      have taken : board.engines.report report now = .ok (board.engines.noted report now) := by
        rw [EnginePool.report_eq, named, measured]
        rfl
      obtain ⟨engine, known⟩ :=
        Option.isSome_iff_exists.1 (board.engines.isSome_get?_noted report now)
      have there : EnginePool.find (board.engines.noted report now) report.engineId = .ok engine :=
        EnginePool.find_eq_ok.2 known
      refine ⟨engine.status, ?_⟩
      simp only [attempt, transition, taken, bind, Except.bind, Setback.lift_ok, there]
      rfl

end Operation

end JobDispatch
