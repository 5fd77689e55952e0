import JobDispatch.Proofs.Board.Binding
import JobDispatch.Proofs.Board.Census
import JobDispatch.Proofs.Board.Retries
import JobDispatch.Proofs.Desk.Session
set_option autoImplicit false

namespace JobDispatch

open Time

namespace Session

/-- Ids that are all different, and new to the board, bring in new jobs only. -/
theorem fresh_run {desk : Desk} (kept : desk.Kept) (turns : List Turn)
    (distinct : (desk.ids.between desk.ids.issued
      ((opening desk).run turns).desk.ids.issued).Nodup)
    (unfiled : ∀ id ∈ desk.ids.between desk.ids.issued
      ((opening desk).run turns).desk.ids.issued, desk.board.jobs.get? id = none) :
    Board.Fresh desk.board ((opening desk).run turns).log := by
  obtain ⟨_, _, submitted⟩ := submitted_run kept turns
  exact ⟨distinct.sublist submitted, fun id member => unfiled id (submitted.subset member)⟩

/-- A run of a desk that was opened without a document is a history of the empty board. -/
theorem history_of_vacant {settings : Settings} {disk : Disk} {ids : IdSupply} {desk : Desk}
    (opened : Desk.start settings disk ids = .ok desk) (vacant : disk.load = .ok none)
    (turns : List Turn)
    (distinct : (ids.between ids.issued ((opening desk).run turns).desk.ids.issued).Nodup) :
    Board.History .empty ((opening desk).run turns).log ((opening desk).run turns).desk.board
      ∧ Board.Fresh .empty ((opening desk).run turns).log := by
  have kept := Desk.kept_of_start opened
  obtain ⟨loaded, read, same⟩ := Desk.start_eq_ok.1 opened
  cases vacant.symm.trans read
  subst same
  exact ⟨(kept_run kept turns).2, fresh_run kept turns distinct fun _ _ => rfl⟩

/-- In every state of a run that begins without a document, an engine holds a job exactly when the
job is assigned to that engine. An engine that holds a job is busy, no engine holds two jobs and no
job is held by two engines. A busy engine holds an assigned job, or it was busy by its own last
report. -/
theorem bindings_two_sided {settings : Settings} {disk : Disk} {ids : IdSupply} {desk : Desk}
    (opened : Desk.start settings disk ids = .ok desk) (vacant : disk.load = .ok none)
    (turns : List Turn)
    (distinct : (ids.between ids.issued ((opening desk).run turns).desk.ids.issued).Nodup) :
    let final := (opening desk).run turns
    let jobs := final.desk.board.jobs
    let engines := final.desk.board.engines
    (∀ name id, (∃ engine, engines.get? name = some engine ∧ engine.currentJob = some id) ↔
        ∃ job, jobs.get? id = some job ∧ job.status = .assigned ∧ job.assignedEngine = some name)
      ∧ (∀ name engine, engines.get? name = some engine → engine.currentJob.isSome = true →
        engine.status = .busy)
      ∧ (∀ name id other job otherJob, jobs.get? id = some job → jobs.get? other = some otherJob →
        job.assignedEngine = some name → otherJob.assignedEngine = some name → id = other)
      ∧ (∀ id name other engine otherEngine, engines.get? name = some engine →
        engines.get? other = some otherEngine → engine.currentJob = some id →
        otherEngine.currentJob = some id → name = other)
      ∧ ∀ name engine, engines.get? name = some engine → engine.status = .busy →
        (∃ id job, engine.currentJob = some id ∧ jobs.get? id = some job
          ∧ job.status = .assigned ∧ job.assignedEngine = some name)
        ∨ ∃ report, final.log.lastReport? name = some report ∧ report.status = .busy := by
  intro final jobs engines
  obtain ⟨history, fresh⟩ := history_of_vacant opened vacant turns distinct
  have storable := history.storable Board.storable_empty
  obtain ⟨⟨held, holding, busy⟩, accounted⟩ := history.matched fresh
  have assigned (id : Uuid) (job : Job) (name : String) (found : jobs.get? id = some job)
      (holder : job.assignedEngine = some name) : job.status = .assigned :=
    (Job.assignedEngine_isSome_iff (storable.jobs id job found).2.1).1 (by rw [holder]; rfl)
  refine ⟨?_, busy, ?_, ?_, ?_⟩
  · intro name id
    constructor
    · rintro ⟨engine, known, current⟩
      obtain ⟨job, found, holder⟩ := holding name engine id known current
      exact ⟨job, found, assigned id job name found holder, holder⟩
    · rintro ⟨job, found, _, holder⟩
      exact held id job name found holder
  · intro name id other job otherJob found otherFound holder otherHolder
    obtain ⟨engine, known, current⟩ := held id job name found holder
    obtain ⟨_, otherKnown, otherCurrent⟩ := held other otherJob name otherFound otherHolder
    cases known.symm.trans otherKnown
    exact Option.some.inj (current.symm.trans otherCurrent)
  · intro id name other engine otherEngine known otherKnown current otherCurrent
    obtain ⟨job, found, holder⟩ := holding name engine id known current
    obtain ⟨_, otherFound, otherHolder⟩ := holding other otherEngine id otherKnown otherCurrent
    cases found.symm.trans otherFound
    exact Option.some.inj (holder.symm.trans otherHolder)
  · intro name engine known isBusy
    rcases accounted name engine known isBusy with bound | reported
    · obtain ⟨id, current⟩ := Option.isSome_iff_exists.1 bound
      obtain ⟨job, found, holder⟩ := holding name engine id known current
      exact .inl ⟨id, job, current, found, assigned id job name found holder, holder⟩
    · exact .inr reported

def startedJob : List Turn :=
  [.ask (.submit ⟨"in", "out", Binary64.zero false, 1⟩) .first,
    .ask (.heartbeat ⟨"engine", .idle, Binary64.zero false⟩) .first,
    .ask (.benchmark "engine" (Binary64.zero false)) .first, .ask .assign .first]

theorem bindings_two_sided_startedJob :
    Desk.start .standard (Desk.initial .standard).disk (Desk.initial .standard).ids =
        .ok (Desk.initial .standard)
      ∧ (Desk.initial .standard).disk.load = .ok none
      ∧ ((Desk.initial .standard).ids.between 0
        ((opening (Desk.initial .standard)).run startedJob).desk.ids.issued).Nodup
      ∧ ∃ engine job,
        ((opening (Desk.initial .standard)).run startedJob).desk.board.engines.get? "engine" =
          some engine
        ∧ engine.currentJob = some (Uuid.ofNat 0) ∧ engine.status = .busy
        ∧ ((opening (Desk.initial .standard)).run startedJob).desk.board.jobs.get? (Uuid.ofNat 0) =
          some job
        ∧ job.status = .assigned ∧ job.assignedEngine = some "engine" := by
  have opened := Desk.start_initial .standard
  have vacant : (Desk.initial .standard).disk.load = .ok none := rfl
  have distinct : ((Desk.initial .standard).ids.between 0
      ((opening (Desk.initial .standard)).run startedJob).desk.ids.issued).Nodup := by
    decide +kernel
  have bound : (((opening (Desk.initial .standard)).run startedJob).desk.board.engines.get?
      "engine").map Engine.currentJob = some (some (Uuid.ofNat 0)) := by
    decide +kernel
  obtain ⟨engine, known, current⟩ := Option.map_eq_some_iff.1 bound
  obtain ⟨sides, busy, _⟩ := bindings_two_sided opened vacant startedJob distinct
  obtain ⟨job, found, assigned, holder⟩ :=
    (sides "engine" (Uuid.ofNat 0)).1 ⟨engine, known, current⟩
  exact ⟨opened, vacant, distinct, engine, job, known, current,
    busy "engine" engine known (by rw [current]; rfl), found, assigned, holder⟩

/-- In every state of a run that begins without a document, the retries of a job are its accepted
failures, and its assignments are these and the one that is under way or done. A job is given up by
the failure that exceeds its bound and by no other, so that it is assigned at most once more than
its bound tells. Between any two reports on a job it was assigned. -/
theorem retries_accounted {settings : Settings} {disk : Disk} {ids : IdSupply} {desk : Desk}
    (opened : Desk.start settings disk ids = .ok desk) (vacant : disk.load = .ok none)
    (turns : List Turn)
    (distinct : (ids.between ids.issued ((opening desk).run turns).desk.ids.issued).Nodup) :
    let final := (opening desk).run turns
    (∀ id job, final.desk.board.jobs.get? id = some job →
      final.log.failures id = job.retries.toNat
        ∧ final.log.bindings id = job.retries.toNat
          + (if job.status = .assigned ∨ job.status = .completed then 1 else 0)
        ∧ (job.status ≠ .failedPermanently → job.retries ≤ job.maxRetries)
        ∧ (job.status = .failedPermanently ↔ job.retries.toNat = job.maxRetries.toNat + 1)
        ∧ final.log.bindings id ≤ job.maxRetries.toNat + 1
        ∧ ∀ before now outcome after, final.log = before ++ (now, .failed id outcome) :: after →
          (outcome.isFinal = true ↔ Log.failures before id = job.maxRetries.toNat))
      ∧ ∀ id before first between second after,
        final.log = before ++ first :: between ++ second :: after →
        first.2.reportsOn id = true → second.2.reportsOn id = true →
        ∃ entry ∈ between, entry.2.binds id = true := by
  intro final
  obtain ⟨history, fresh⟩ := history_of_vacant opened vacant turns distinct
  constructor
  · intro id job found
    obtain ⟨failures, bindings, _, within, exceeded⟩ :=
      (history.tallied fresh).filed id job found
    refine ⟨failures, bindings, ?_, ⟨exceeded, ?_⟩, ?_, ?_⟩
    · intro kept
      exact UInt32.le_iff_toNat_le.2 (within kept)
    · intro beyond
      by_contra kept
      have bound := within kept
      omega
    · refine (Nat.le_of_eq bindings).trans ?_
      by_cases given : job.status = .failedPermanently
      · have beyond := exceeded given
        rw [if_neg (by simp [given])]
        omega
      · have bound := within given
        split <;> omega
    · intro before now outcome after parts
      exact history.isFinal_iff fresh parts found
  · intro id before first between second after parts one two
    exact history.bound_between_reports fresh parts one two

/-- A run in which a job that may be tried once more fails twice. -/
def failedTwice : List Turn :=
  startedJob ++ [.ask (.fail (Uuid.ofNat 0) "broken") .first, .ask .assign .first,
    .ask (.fail (Uuid.ofNat 0) "broken") .first]

theorem retries_accounted_failedTwice :
    Desk.start .standard (Desk.initial .standard).disk (Desk.initial .standard).ids =
        .ok (Desk.initial .standard)
      ∧ (Desk.initial .standard).disk.load = .ok none
      ∧ ((Desk.initial .standard).ids.between 0
        ((opening (Desk.initial .standard)).run failedTwice).desk.ids.issued).Nodup
      ∧ ∃ job, ((opening (Desk.initial .standard)).run failedTwice).desk.board.jobs.get?
          (Uuid.ofNat 0) = some job
        ∧ job.status = .failedPermanently
        ∧ ((opening (Desk.initial .standard)).run failedTwice).log.failures (Uuid.ofNat 0) =
          job.maxRetries.toNat + 1
        ∧ ((opening (Desk.initial .standard)).run failedTwice).log.bindings (Uuid.ofNat 0) ≤
          job.maxRetries.toNat + 1 := by
  have opened := Desk.start_initial .standard
  have vacant : (Desk.initial .standard).disk.load = .ok none := rfl
  have distinct : ((Desk.initial .standard).ids.between 0
      ((opening (Desk.initial .standard)).run failedTwice).desk.ids.issued).Nodup := by
    decide +kernel
  have ended : (((opening (Desk.initial .standard)).run failedTwice).desk.board.jobs.get?
      (Uuid.ofNat 0)).map Job.status = some .failedPermanently := by
    decide +kernel
  obtain ⟨job, found, given⟩ := Option.map_eq_some_iff.1 ended
  obtain ⟨failures, _, _, final, bound, _⟩ :=
    (retries_accounted opened vacant failedTwice distinct).1 _ job found
  exact ⟨opened, vacant, distinct, job, found, given, failures.trans (final.1 given), bound⟩

/-- In every state of a run that begins without a document, the jobs stand in the order in which
they were submitted, and a job has a last engine exactly when the log tells that it was given to
one. These jobs come first: whenever a job was given to an engine, all jobs that were submitted
before it had been given to one. -/
theorem started_in_order {settings : Settings} {disk : Disk} {ids : IdSupply} {desk : Desk}
    (opened : Desk.start settings disk ids = .ok desk) (vacant : disk.load = .ok none)
    (turns : List Turn)
    (distinct : (ids.between ids.issued ((opening desk).run turns).desk.ids.issued).Nodup) :
    let final := (opening desk).run turns
    final.desk.jobs.map Job.id = final.log.submittedJobs
      ∧ (∀ id job, final.desk.board.jobs.get? id = some job →
        (job.lastEngine.isSome = true ↔ ∃ entry ∈ final.log, entry.2.binds id = true))
      ∧ (final.desk.jobs.filter fun job => job.lastEngine.isSome) <+: final.desk.jobs
      ∧ ∀ before now id engine after, final.log = before ++ (now, .bound id engine) :: after →
        ∀ front back, final.log.submittedJobs = front ++ id :: back →
          ∀ other ∈ front, ∃ entry ∈ before, entry.2.binds other = true := by
  intro final
  obtain ⟨history, fresh⟩ := history_of_vacant opened vacant turns distinct
  have sequenced := history.sequenced fresh
  have storable := history.storable Board.storable_empty
  have own := Ledger.keys_eq_map_records fun key job found => (storable.jobs key job found).1
  refine ⟨own.symm.trans sequenced.submitted, ?_, sequenced.inTurn.filter_prefix, ?_⟩
  · intro id job found
    exact (sequenced.tried id job found).trans List.countP_pos_iff
  · intro before now id engine after parts front back order other ahead
    exact List.countP_pos_iff.1 (history.bound_before fresh parts order ahead)

/-- A run in which an older job fails and waits again while a newer one has not been started, and
then gets the engine once more. -/
def olderAgain : List Turn :=
  [.ask (.submit ⟨"in", "out", Binary64.zero false, 1⟩) .first] ++ startedJob
    ++ [.ask (.fail (Uuid.ofNat 0) "broken") .first, .assignAll .first]

theorem started_in_order_olderAgain :
    Desk.start .standard (Desk.initial .standard).disk (Desk.initial .standard).ids =
        .ok (Desk.initial .standard)
      ∧ (Desk.initial .standard).disk.load = .ok none
      ∧ ((Desk.initial .standard).ids.between 0
        ((opening (Desk.initial .standard)).run olderAgain).desk.ids.issued).Nodup
      ∧ ((opening (Desk.initial .standard)).run olderAgain).desk.jobs.map Job.id =
        [Uuid.ofNat 0, Uuid.ofNat 1]
      ∧ ((opening (Desk.initial .standard)).run olderAgain).log.submittedJobs =
        [Uuid.ofNat 0, Uuid.ofNat 1]
      ∧ ((opening (Desk.initial .standard)).run olderAgain).desk.jobs.map Job.lastEngine =
        [some "engine", none]
      ∧ (∃ entry ∈ ((opening (Desk.initial .standard)).run olderAgain).log,
        entry.2.binds (Uuid.ofNat 0) = true)
      ∧ (((opening (Desk.initial .standard)).run olderAgain).desk.jobs.filter fun job =>
          job.lastEngine.isSome) <+:
        ((opening (Desk.initial .standard)).run olderAgain).desk.jobs := by
  have opened := Desk.start_initial .standard
  have vacant : (Desk.initial .standard).disk.load = .ok none := rfl
  have distinct : ((Desk.initial .standard).ids.between 0
      ((opening (Desk.initial .standard)).run olderAgain).desk.ids.issued).Nodup := by
    decide +kernel
  have jobs : ((opening (Desk.initial .standard)).run olderAgain).desk.jobs.map Job.id =
      [Uuid.ofNat 0, Uuid.ofNat 1] := by
    decide +kernel
  have engines : ((opening (Desk.initial .standard)).run olderAgain).desk.jobs.map Job.lastEngine =
      [some "engine", none] := by
    decide +kernel
  have older : (((opening (Desk.initial .standard)).run olderAgain).desk.board.jobs.get?
      (Uuid.ofNat 0)).map Job.lastEngine = some (some "engine") := by
    decide +kernel
  obtain ⟨job, found, last⟩ := Option.map_eq_some_iff.1 older
  obtain ⟨order, tried, first, _⟩ := started_in_order opened vacant olderAgain distinct
  exact ⟨opened, vacant, distinct, jobs, order.symm.trans jobs, engines,
    (tried _ job found).1 (by rw [last]; rfl), first⟩

/-- In every state of a run that begins without a document, the statistics agree with what was
accepted: the jobs are those that were submitted, the engines those that reported, each counted
once; the jobs that are done and those that were given up are as many as the log tells; and of all
assignments those are under way that no completion and no failure has ended. Each of these keeps one
engine busy. -/
theorem statistics_conserved {settings : Settings} {disk : Disk} {ids : IdSupply} {desk : Desk}
    (opened : Desk.start settings disk ids = .ok desk) (vacant : disk.load = .ok none)
    (turns : List Turn)
    (distinct : (ids.between ids.issued ((opening desk).run turns).desk.ids.issued).Nodup) :
    let final := (opening desk).run turns
    let statistics := final.desk.board.statistics
    statistics.jobsTotal = final.log.submittedJobs.length
      ∧ statistics.jobsTotal = statistics.jobs.pending + statistics.jobs.assigned
        + statistics.jobs.completed + statistics.jobs.failedPermanently
      ∧ statistics.enginesTotal = final.log.reporters.dedup.length
      ∧ statistics.enginesTotal = statistics.engines.idle + statistics.engines.busy
      ∧ statistics.jobs.completed = final.log.total Event.isCompletion
      ∧ statistics.jobs.failedPermanently = final.log.total Event.isFinalFailure
      ∧ statistics.jobs.assigned + final.log.total Event.isCompletion
        + final.log.total Event.isFailure = final.log.total Event.isBinding
      ∧ statistics.jobs.assigned = final.desk.engines.countP (fun engine =>
        engine.currentJob.isSome)
      ∧ statistics.jobs.assigned ≤ statistics.engines.busy := by
  intro final statistics
  obtain ⟨history, fresh⟩ := history_of_vacant opened vacant turns distinct
  have storable := history.storable Board.storable_empty
  obtain ⟨completed, givenUp, assigned⟩ := history.balanced fresh
  obtain ⟨matched, _⟩ := history.matched fresh
  have holding := matched.countP_holding storable
  refine ⟨?_, JobLedger.size_eq_add_countOf _, history.enrolled.size_eq,
    EnginePool.size_eq_add_countOf _, completed, givenUp, assigned, holding.symm, ?_⟩
  · rw [← (history.sequenced fresh).submitted]
    exact (List.length_map _).symm
  · refine holding.symm.trans_le (List.countP_mono_left fun engine member held => ?_)
    obtain ⟨name, known⟩ := Ledger.mem_records_iff.1 member
    exact decide_eq_true (matched.busy name engine known held)

/-- A run in which one job is given up, one is done, one is under way and one waits, while an engine
that has no job reports that it is busy. -/
def mixedFates : List Turn :=
  failedTwice ++ [.ask (.submit ⟨"in", "out", Binary64.zero false, 1⟩) .first,
    .ask (.submit ⟨"in", "out", Binary64.zero false, 1⟩) .first,
    .ask (.submit ⟨"in", "out", Binary64.zero false, 1⟩) .first, .assignAll .first,
    .ask (.complete (Uuid.ofNat 1) "done") .first, .assignAll .first,
    .ask (.heartbeat ⟨"other", .busy, Binary64.zero false⟩) .first]

theorem statistics_conserved_mixedFates :
    Desk.start .standard (Desk.initial .standard).disk (Desk.initial .standard).ids =
        .ok (Desk.initial .standard)
      ∧ (Desk.initial .standard).disk.load = .ok none
      ∧ ((Desk.initial .standard).ids.between 0
        ((opening (Desk.initial .standard)).run mixedFates).desk.ids.issued).Nodup
      ∧ ((opening (Desk.initial .standard)).run mixedFates).desk.board.statistics =
        ⟨4, 2, ⟨1, 1, 1, 1⟩, ⟨0, 2⟩⟩
      ∧ ((opening (Desk.initial .standard)).run mixedFates).log.total Event.isBinding = 4
      ∧ 1 + ((opening (Desk.initial .standard)).run mixedFates).log.total Event.isCompletion
        + ((opening (Desk.initial .standard)).run mixedFates).log.total Event.isFailure = 4 := by
  have opened := Desk.start_initial .standard
  have vacant : (Desk.initial .standard).disk.load = .ok none := rfl
  have distinct : ((Desk.initial .standard).ids.between 0
      ((opening (Desk.initial .standard)).run mixedFates).desk.ids.issued).Nodup := by
    decide +kernel
  have statistics : ((opening (Desk.initial .standard)).run mixedFates).desk.board.statistics =
      ⟨4, 2, ⟨1, 1, 1, 1⟩, ⟨0, 2⟩⟩ := by
    decide +kernel
  have bindings : ((opening (Desk.initial .standard)).run mixedFates).log.total
      Event.isBinding = 4 := by
    decide +kernel
  obtain ⟨_, _, _, _, _, _, assigned, _⟩ :=
    statistics_conserved opened vacant mixedFates distinct
  rw [statistics, bindings] at assigned
  dsimp only at assigned
  exact ⟨opened, vacant, distinct, statistics, bindings, assigned⟩

end Session

end JobDispatch
