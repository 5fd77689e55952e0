import JobDispatch.Proofs.Board.History
set_option autoImplicit false

namespace JobDispatch

open Time

def Event.reportOf? (engine : String) : Event → Option Heartbeat
  | reported report => if report.engineId = engine then some report else none
  | _ => none

def Log.lastReport? (log : Log) (engine : String) : Option Heartbeat :=
  (log.filterMap fun entry => entry.2.reportOf? engine).getLast?

theorem Log.lastReport?_step (log : Log) (now : Instant) (event : Event) (engine : String) :
    Log.lastReport? (log ++ [(now, event)]) engine =
      (event.reportOf? engine).or (log.lastReport? engine) :=
  getLast?_told_step (Event.reportOf? engine) log now event

namespace Board

/-- A job is on record with the engine that it is on record at, and the other way round; an engine
that holds a job is busy. -/
structure Matched (board : Board) : Prop where
  held : ∀ id job name, board.jobs.get? id = some job → job.assignedEngine = some name →
    ∃ engine, board.engines.get? name = some engine ∧ engine.currentJob = some id
  holding : ∀ name engine id, board.engines.get? name = some engine →
    engine.currentJob = some id →
    ∃ job, board.jobs.get? id = some job ∧ job.assignedEngine = some name
  busy : ∀ name engine, board.engines.get? name = some engine →
    engine.currentJob.isSome = true → engine.status = .busy

theorem matched_empty : empty.Matched where
  held := by
    intro id job name found
    cases found
  holding := by
    intro name engine id found
    cases found
  busy := by
    intro name engine found
    cases found

variable {board : Board}

/-- A step of an engine that leaves its job alone keeps the bindings. -/
theorem Matched.update_engine (matched : board.Matched) (name : String)
    {change : Engine → Engine} (same : ∀ engine, (change engine).currentJob = engine.currentJob)
    (busy : ∀ engine, engine.currentJob.isSome = true → engine.status = .busy →
      (change engine).status = .busy) :
    (Board.mk board.jobs (board.engines.update name change)).Matched where
  held := by
    intro id job holder found assigned
    obtain ⟨engine, known, current⟩ := matched.held id job holder found assigned
    by_cases own : holder = name
    · subst own
      exact ⟨_, Ledger.get?_update_self change known, (same engine).trans current⟩
    · exact ⟨engine, (Ledger.get?_update_of_ne change own).trans known, current⟩
  holding := by
    intro holder engine id found current
    rcases Ledger.get?_update_eq_some.1 found with ⟨old, own, known, changed⟩ | ⟨_, known⟩
    · subst own changed
      exact matched.holding holder old id known ((same old).symm.trans current)
    · exact matched.holding holder engine id known current
  busy := by
    intro holder engine found bound
    rcases Ledger.get?_update_eq_some.1 found with ⟨old, own, known, changed⟩ | ⟨_, known⟩
    · subst own changed
      rw [same] at bound
      exact busy old bound (matched.busy holder old known bound)
    · exact matched.busy holder engine known bound

/-- When a job leaves its engine, both sides of the binding go. -/
theorem Matched.free (matched : board.Matched) {id : Uuid} {job : Job} {name : String}
    {step : Job → Job} (found : board.jobs.get? id = some job)
    (assigned : job.assignedEngine = some name) (leaves : (step job).assignedEngine = none) :
    (Board.mk (board.jobs.update id step)
      (board.engines.releaseFrom id job.assignedEngine)).Matched := by
  obtain ⟨holder, known, current⟩ := matched.held id job name found assigned
  have freed : holder.freedFrom id = holder.release := by
    simp [Engine.freedFrom, current]
  constructor
  · intro other otherJob otherName lookup otherAssigned
    rcases Ledger.get?_update_eq_some.1 lookup with ⟨old, same, there, changed⟩ | ⟨apart, there⟩
    · cases found.symm.trans there
      rw [← changed, leaves] at otherAssigned
      cases otherAssigned
    · obtain ⟨engine, otherKnown, otherCurrent⟩ :=
        matched.held other otherJob otherName there otherAssigned
      refine ⟨engine, EnginePool.get?_releaseFrom_eq_some.2 (.inr ⟨?_, otherKnown⟩), otherCurrent⟩
      -- the engine that is freed holds this job and no other one
      intro same
      cases assigned.symm.trans same
      cases known.symm.trans otherKnown
      cases current.symm.trans otherCurrent
      exact apart rfl
  · intro otherName engine other lookup otherCurrent
    rcases EnginePool.get?_releaseFrom_eq_some.1 lookup with
      ⟨old, same, there, changed⟩ | ⟨apart, there⟩
    · cases assigned.symm.trans same
      cases known.symm.trans there
      rw [← changed, freed] at otherCurrent
      cases otherCurrent
    · obtain ⟨otherJob, otherFound, otherAssigned⟩ :=
        matched.holding otherName engine other there otherCurrent
      refine ⟨otherJob, Ledger.get?_update_eq_some.2 (.inr ⟨?_, otherFound⟩), otherAssigned⟩
      intro same
      subst same
      cases found.symm.trans otherFound
      exact apart otherAssigned
  · intro otherName engine lookup bound
    rcases EnginePool.get?_releaseFrom_eq_some.1 lookup with
      ⟨old, same, there, changed⟩ | ⟨_, there⟩
    · cases assigned.symm.trans same
      cases known.symm.trans there
      rw [← changed, freed] at bound
      cases bound
    · exact matched.busy otherName engine there bound

/-- When a free job and a free engine come together, both sides of a new binding come about. -/
theorem Matched.bind (matched : board.Matched) {job : Job} {engine : Engine} (now : Instant)
    (found : board.jobs.get? job.id = some job) (unassigned : job.assignedEngine = none)
    (known : board.engines.get? engine.id = some engine) (unbound : engine.currentJob = none) :
    (Board.mk (board.jobs.update job.id (Job.assign engine.id now))
      (board.engines.update engine.id (Engine.bind job.id))).Matched := by
  constructor
  · intro id other name lookup assigned
    rcases Ledger.get?_update_eq_some.1 lookup with ⟨old, same, there, changed⟩ | ⟨apart, there⟩
    · subst same changed
      cases assigned
      exact ⟨_, Ledger.get?_update_self _ known, rfl⟩
    · obtain ⟨holder, otherKnown, current⟩ := matched.held id other name there assigned
      refine ⟨holder, Ledger.get?_update_eq_some.2 (.inr ⟨?_, otherKnown⟩), current⟩
      intro same
      subst same
      cases known.symm.trans otherKnown
      rw [unbound] at current
      cases current
  · intro name holder id lookup current
    rcases Ledger.get?_update_eq_some.1 lookup with ⟨old, same, there, changed⟩ | ⟨apart, there⟩
    · subst same changed
      cases current
      exact ⟨_, Ledger.get?_update_self _ found, rfl⟩
    · obtain ⟨other, otherFound, assigned⟩ := matched.holding name holder id there current
      refine ⟨other, Ledger.get?_update_eq_some.2 (.inr ⟨?_, otherFound⟩), assigned⟩
      intro same
      subst same
      cases found.symm.trans otherFound
      rw [unassigned] at assigned
      cases assigned
  · intro name holder lookup bound
    rcases Ledger.get?_update_eq_some.1 lookup with ⟨old, same, there, changed⟩ | ⟨apart, there⟩
    · subst same changed
      rfl
    · exact matched.busy name holder there bound

/-- Every step keeps the bindings, as long as a job that is brought in is new. -/
theorem Change.matched {now : Instant} {next : Board} {event : Event}
    (change : Change now board event next) (storable : board.Storable) (matched : board.Matched)
    (new : ∀ id, event = .submitted id → board.jobs.get? id = none) : next.Matched := by
  cases change with
  | @submitted id request accepted =>
    have absent := new id rfl
    refine ⟨?_, ?_, matched.busy⟩
    · intro other job name lookup assigned
      rcases Ledger.get?_put_eq_some.1 lookup with ⟨same, filed⟩ | ⟨apart, there⟩
      · subst filed
        cases assigned
      · exact matched.held other job name there assigned
    · intro name engine other known current
      obtain ⟨job, found, assigned⟩ := matched.holding name engine other known current
      refine ⟨job, Ledger.get?_put_eq_some.2 (.inr ⟨?_, found⟩), assigned⟩
      intro same
      subst same
      rw [absent] at found
      cases found
  | @registered report accepted unknown =>
    refine ⟨?_, ?_, ?_⟩
    · intro id job name found assigned
      obtain ⟨engine, known, current⟩ := matched.held id job name found assigned
      refine ⟨engine, Ledger.get?_put_eq_some.2 (.inr ⟨?_, known⟩), current⟩
      intro same
      subst same
      rw [unknown] at known
      cases known
    · intro name engine id lookup current
      rcases Ledger.get?_put_eq_some.1 lookup with ⟨same, filed⟩ | ⟨_, known⟩
      · subst filed
        cases current
      · exact matched.holding name engine id known current
    · intro name engine lookup bound
      rcases Ledger.get?_put_eq_some.1 lookup with ⟨same, filed⟩ | ⟨_, known⟩
      · subst filed
        cases bound
      · exact matched.busy name engine known bound
  | @refreshed report engine accepted known =>
    exact matched.update_engine report.engineId (fun _ => rfl) fun engine bound _ => by
      simp [Engine.refresh, bound]
  | @measured id engine time amount known =>
    exact matched.update_engine id (fun _ => rfl) fun engine _ busy => busy
  | @bound rule job engine first chosen found waiting known idle =>
    have unassigned : job.assignedEngine = none := by
      have ordered := (storable.jobs _ job found).2.1
      simpa [waiting] using Job.assignedEngine_isSome_iff ordered
    have unbound : engine.currentJob = none := by
      have busy := matched.busy _ engine known
      simpa [idle] using busy
    exact matched.bind now found unassigned known unbound
  | @completed id job outputUrl found held written =>
    have ordered := (storable.jobs id job found).2.1
    obtain ⟨name, assigned⟩ := Option.isSome_iff_exists.1
      ((Job.assignedEngine_isSome_iff ordered).2 held)
    exact matched.free found assigned rfl
  | @failed id job retries reason found held counted =>
    have ordered := (storable.jobs id job found).2.1
    obtain ⟨name, assigned⟩ := Option.isSome_iff_exists.1
      ((Job.assignedEngine_isSome_iff ordered).2 held)
    obtain ⟨status, message, same⟩ := job.failed_record retries reason now
    exact matched.free found assigned (by rw [same])

/-- The last report of an engine accounts for its state: a busy engine holds a job, or it reported
to be busy. -/
def Accounted (log : Log) (board : Board) : Prop :=
  ∀ name engine, board.engines.get? name = some engine → engine.status = .busy →
    engine.currentJob.isSome = true
      ∨ ∃ report, log.lastReport? name = some report ∧ report.status = .busy

/-- Every step keeps the accounts of the engines. -/
theorem Change.accounted {now : Instant} {next : Board} {event : Event} {log : Log}
    (change : Change now board event next) (accounted : Accounted log board) :
    Accounted (log ++ [(now, event)]) next := by
  have quiet (silent : ∀ name, event.reportOf? name = none) (name : String) :
      Log.lastReport? (log ++ [(now, event)]) name = log.lastReport? name := by
    rw [Log.lastReport?_step, silent, Option.none_or]
  have told {report : Heartbeat} (same : event = .reported report) (name : String) :
      Log.lastReport? (log ++ [(now, event)]) name =
        if report.engineId = name then some report else log.lastReport? name := by
    rw [Log.lastReport?_step, same, Event.reportOf?]
    split <;> simp
  cases change with
  | submitted accepted =>
    intro name engine known busy
    rw [quiet fun _ => rfl]
    exact accounted name engine known busy
  | @registered report accepted unknown =>
    intro name engine lookup busy
    rw [told rfl]
    rcases Ledger.get?_put_eq_some.1 lookup with ⟨same, filed⟩ | ⟨apart, known⟩
    · subst same filed
      rw [if_pos rfl]
      exact .inr ⟨report, rfl, busy⟩
    · rw [if_neg (Ne.symm apart)]
      exact accounted name engine known busy
  | @refreshed report engine accepted known =>
    intro name engine lookup busy
    rw [told rfl]
    rcases Ledger.get?_update_eq_some.1 lookup with ⟨old, same, there, changed⟩ | ⟨apart, there⟩
    · subst same changed
      rw [if_pos rfl]
      by_cases bound : old.currentJob.isSome = true
      · exact .inl bound
      · simp only [Engine.refresh, if_neg bound] at busy
        exact .inr ⟨report, rfl, busy⟩
    · rw [if_neg (Ne.symm apart)]
      exact accounted name engine there busy
  | @measured id engine time amount known =>
    intro name engine lookup busy
    rw [quiet fun _ => rfl]
    rcases Ledger.get?_update_eq_some.1 lookup with ⟨old, same, there, changed⟩ | ⟨_, there⟩
    · subst same changed
      exact accounted name old there busy
    · exact accounted name engine there busy
  | bound first chosen found waiting known idle =>
    intro name engine lookup busy
    rw [quiet fun _ => rfl]
    rcases Ledger.get?_update_eq_some.1 lookup with ⟨old, same, there, changed⟩ | ⟨_, there⟩
    · subst same changed
      exact .inl rfl
    · exact accounted name engine there busy
  | completed found held written =>
    intro name engine lookup busy
    rw [quiet fun _ => rfl]
    exact EnginePool.forall_releaseFrom accounted (fun _ _ _ idle => by cases idle) name engine
      lookup busy
  | failed found held counted =>
    intro name engine lookup busy
    rw [quiet fun _ => rfl]
    exact EnginePool.forall_releaseFrom accounted (fun _ _ _ idle => by cases idle) name engine
      lookup busy

/-- On a board that began empty all bindings are two-sided, and every engine is accounted for. -/
theorem History.matched {log : Log} (history : History empty log board) (fresh : Fresh empty log) :
    board.Matched ∧ Accounted log board := by
  refine history.induction (fun log board => board.Matched ∧ Accounted log board) fresh
    ⟨matched_empty, ?_⟩ ?_
  · intro name engine known
    cases known
  · intro log board now event next before change new earlier
    exact ⟨change.matched (before.storable storable_empty) earlier.1 new,
      change.accounted earlier.2⟩

end Board

end JobDispatch
