import JobDispatch.Proofs.Board.Commuting
import JobDispatch.Proofs.Desk.AnyDocument
import JobDispatch.Proofs.Desk.Saving
set_option autoImplicit false

namespace JobDispatch

open Time

namespace Operation

/-- Every desk at which saves go through and that has the same record of the job is changed by a
report on the job in the same way, and answers it alike. -/
theorem perform_report {operation : Operation} {id : Uuid}
    (about : operation.reportedJob? = some id) (moment : Moment) (found : Option Job) :
    ∃ told change holder, ∀ desk : Desk,
      desk.CanSave (moment.mishaps 0) → desk.board.jobs.get? id = found →
        (operation.perform moment desk).1 = told
          ∧ (operation.perform moment desk).2.board = desk.board.settle id change holder := by
  obtain ⟨told, change, holder, decides⟩ := attempt_report about moment.now found
  refine ⟨told, change, holder, fun desk saves same => ?_⟩
  obtain ⟨after, performed, board⟩ := perform_of_attempt saves (decides _ _ desk.board same)
  rw [performed]
  exact ⟨rfl, board⟩

/-- An operation as it looks to a caller who is told no more than whether it was carried out. -/
def acknowledge (operation : Operation) (moment : Moment) (desk : Desk) :
    Except Setback Unit × Desk :=
  ((operation.perform moment desk).1.map fun _ => (), (operation.perform moment desk).2)

/-- Every desk at which saves go through refuses the report of an engine, or every one takes it
in. -/
theorem acknowledge_heartbeat (report : Heartbeat) (moment : Moment) :
    ∃ told taken, ((taken = fun engines => engines) ∨ taken = EnginePool.noted report moment.now)
      ∧ ∀ desk : Desk, desk.CanSave (moment.mishaps 0) →
        ((heartbeat report).acknowledge moment desk).1 = told
          ∧ ((heartbeat report).acknowledge moment desk).2.board =
            ⟨desk.board.jobs, taken desk.board.engines⟩ := by
  rcases attempt_heartbeat report moment.now with ⟨setback, refused⟩ | accepted
  · refine ⟨.error setback, fun engines => engines, .inl rfl, fun desk saves => ?_⟩
    obtain ⟨after, performed, board⟩ := perform_of_attempt saves (refused _ _ _)
    rw [acknowledge, performed]
    exact ⟨rfl, board⟩
  · refine ⟨.ok (), EnginePool.noted report moment.now, .inr rfl, fun desk saves => ?_⟩
    obtain ⟨status, taken⟩ := accepted desk.settings (desk.ids.nth desk.ids.issued) desk.board
    obtain ⟨after, performed, board⟩ := perform_of_attempt saves taken
    rw [acknowledge, performed]
    exact ⟨rfl, board⟩

end Operation

namespace Desk

/-- Two requests may be made in either order: each is told what it is told when it comes first, and
both orders lead to the same board. -/
structure Interchange {α β : Type} (first : Desk → α × Desk) (second : Desk → β × Desk)
    (desk : Desk) : Prop where
  firstTold : (first (second desk).2).1 = (first desk).1
  secondTold : (second (first desk).2).1 = (second desk).1
  board : (second (first desk).2).2.board = (first (second desk).2).2.board

variable {desk : Desk} {moment otherMoment : Moment}

/-- Reports on different jobs may come in either order. -/
theorem interchange_reports (saves : desk.CanSave (moment.mishaps 0))
    (otherSaves : desk.CanSave (otherMoment.mishaps 0)) {first second : Operation} {id other : Uuid}
    (about : first.reportedJob? = some id) (otherAbout : second.reportedJob? = some other)
    (apart : id ≠ other) :
    desk.Interchange (first.perform moment) (second.perform otherMoment) := by
  obtain ⟨told, change, holder, acts⟩ :=
    Operation.perform_report about moment (desk.board.jobs.get? id)
  obtain ⟨otherTold, otherChange, otherHolder, otherActs⟩ :=
    Operation.perform_report otherAbout otherMoment (desk.board.jobs.get? other)
  obtain ⟨answer, board⟩ := acts desk saves rfl
  obtain ⟨otherAnswer, otherBoard⟩ := otherActs desk otherSaves rfl
  obtain ⟨answerLater, boardLater⟩ := acts _ (saves.perform second otherMoment) (by
    rw [otherBoard, Board.get?_settle_of_ne apart])
  obtain ⟨otherAnswerLater, otherBoardLater⟩ := otherActs _ (otherSaves.perform first moment) (by
    rw [board, Board.get?_settle_of_ne (Ne.symm apart)])
  refine ⟨answerLater.trans answer.symm, otherAnswerLater.trans otherAnswer.symm, ?_⟩
  rw [boardLater, otherBoardLater, board, otherBoard]
  exact Board.settle_comm apart change otherChange holder otherHolder desk.board

/-- A report of an engine that it is idle and a report on a job may come in either order. -/
theorem interchange_idle_report (saves : desk.CanSave (moment.mishaps 0))
    (otherSaves : desk.CanSave (otherMoment.mishaps 0)) {report : Heartbeat}
    (idle : report.status = .idle) {second : Operation} {id : Uuid}
    (about : second.reportedJob? = some id) : desk.Interchange
      ((Operation.heartbeat report).acknowledge moment) (second.perform otherMoment) := by
  obtain ⟨told, taken, kind, acts⟩ := Operation.acknowledge_heartbeat report moment
  obtain ⟨otherTold, change, holder, otherActs⟩ :=
    Operation.perform_report about otherMoment (desk.board.jobs.get? id)
  obtain ⟨answer, board⟩ := acts desk saves
  obtain ⟨otherAnswer, otherBoard⟩ := otherActs desk otherSaves rfl
  obtain ⟨answerLater, boardLater⟩ := acts _ (saves.perform second otherMoment)
  obtain ⟨otherAnswerLater, otherBoardLater⟩ := otherActs
    ((Operation.heartbeat report).acknowledge moment desk).2
    (otherSaves.perform (.heartbeat report) moment) (by rw [board])
  refine ⟨answerLater.trans answer.symm, otherAnswerLater.trans otherAnswer.symm, ?_⟩
  rw [boardLater, otherBoardLater, board, otherBoard]
  rcases kind with refused | accepted
  · rw [refused]
  · rw [accepted]
    simp only [Board.settle, EnginePool.releaseFrom_noted idle]

/-- Whatever is on the board, and whatever engines its jobs are on record with: where saves go
through, reports on two different jobs may come in either order, and so may a report of an engine
that it is idle, known or new, and a report on any job. A report may be one that is refused, and
each keeps the time at which it comes. -/
theorem independent_reports_interchange (saves : desk.CanSave (moment.mishaps 0))
    (otherSaves : desk.CanSave (otherMoment.mishaps 0)) :
    (∀ (first second : Operation) (id other : Uuid), first.reportedJob? = some id →
        second.reportedJob? = some other → id ≠ other →
          desk.Interchange (first.perform moment) (second.perform otherMoment))
      ∧ ∀ (report : Heartbeat) (second : Operation) (id : Uuid), report.status = .idle →
        second.reportedJob? = some id →
          desk.Interchange ((Operation.heartbeat report).acknowledge moment)
            (second.perform otherMoment) :=
  ⟨fun _ _ _ _ about otherAbout apart =>
      interchange_reports saves otherSaves about otherAbout apart,
    fun _ _ _ idle about => interchange_idle_report saves otherSaves idle about⟩

/-- Two jobs of the tangled board are on record with one engine, which has the first of them on
record. The completion of the first and the failure of the second are accepted in either order, and
so are the failure of the first and a report of the engine that it is idle, which keeps the engine
busy as long as it has the job. -/
theorem independent_reports_interchange_tangled :
    let complete := (Operation.complete (Uuid.ofNat 11) "done").perform .first
    let fail (number : Nat) := (Operation.fail (Uuid.ofNat number) "broken").perform .first
    let report := (Operation.heartbeat ⟨"engine", .idle, Binary64.zero false⟩).acknowledge .first
    Desk.start .standard tangled.disk tangled.ids = .ok tangled
      ∧ (complete (fail 12 tangled).2).1 = .ok .completed
      ∧ (fail 12 (complete tangled).2).1 = .ok (.failed (.requeued 1 1))
      ∧ (complete (fail 12 tangled).2).2.board.jobs.records.map Job.status =
        [.completed, .pending, .assigned, .pending]
      ∧ (fail 12 (complete tangled).2).2.board = (complete (fail 12 tangled).2).2.board
      ∧ (report (fail 11 tangled).2).1 = .ok ()
      ∧ (fail 11 (report tangled).2).1 = .ok (.failed (.requeued 1 1))
      ∧ (report tangled).2.board.engines.records.map Engine.status = [.busy]
      ∧ (fail 11 (report tangled).2).2.board.engines.records.map Engine.status = [.idle]
      ∧ (fail 11 (report tangled).2).2.board = (report (fail 11 tangled).2).2.board := by
  intro complete fail report
  have saves : tangled.CanSave (Moment.first.mishaps 0) := canSave_onFile .standard .tangled
  obtain ⟨reports, idleReports⟩ := independent_reports_interchange saves saves
  have twoJobs : tangled.Interchange complete (fail 12) :=
    reports _ _ (Uuid.ofNat 11) (Uuid.ofNat 12) rfl rfl (by decide)
  have oneEngine : tangled.Interchange report (fail 11) :=
    idleReports _ _ (Uuid.ofNat 11) rfl rfl
  refine ⟨start_tangled, twoJobs.firstTold.trans ?_, twoJobs.secondTold.trans ?_, ?_,
    twoJobs.board, oneEngine.firstTold.trans ?_, oneEngine.secondTold.trans ?_, ?_, ?_,
    oneEngine.board⟩
  all_goals decide +kernel

end Desk

end JobDispatch
