import JobDispatch.Proofs.Engine
set_option autoImplicit false

/- The changes of jobs and engines as they are carried out in place: a record is looked up, and then
its fields are set one after another. Work that stops on the way leaves behind what it has done so
far. Each change comes to the same in this way, since it looks at everything before it sets
anything. -/
namespace JobDispatch

open Time

/-- Work on a state that may stop on the way. -/
abbrev InPlace (σ α : Type) := ExceptT Setback (StateM σ) α

namespace InPlace

variable {σ α β : Type}

@[simp] theorem run_get_bind (next : σ → InPlace σ α) (state : σ) :
    (get >>= next).run.run state = (next state).run.run state := rfl

@[simp] theorem run_modify_bind (change : σ → σ) (next : PUnit → InPlace σ α) (state : σ) :
    (modify change >>= next).run.run state = (next ()).run.run (change state) := rfl

/-- Looks at the state, and goes on unless this comes to a setback. -/
def look (judge : σ → Except Setback α) : InPlace σ α := do liftExcept (judge (← get))

theorem run_look_bind (judge : σ → Except Setback α) (next : α → InPlace σ β) (state : σ) :
    (look judge >>= next).run.run state = match judge state with
      | .ok a => (next a).run.run state
      | .error setback => (.error setback, state) := by
  change (liftExcept (judge state) >>= next).run.run state = _
  cases judge state <;> rfl

/-- The work does all that the change does, and does nothing where the change meets a setback. -/
def CarriesOut (work : InPlace σ α) (change : σ → Except Setback (α × σ)) : Prop :=
  ∀ state, work.run.run state = match change state with
    | .ok (a, next) => (.ok a, next)
    | .error setback => (.error setback, state)

/-- Work that carries out a change leaves the state as it is when it meets a setback. -/
theorem CarriesOut.eq_of_error {work : InPlace σ α} {change : σ → Except Setback (α × σ)}
    (carries : work.CarriesOut change) {state after : σ} {setback : Setback}
    (stopped : work.run.run state = (.error setback, after)) : after = state := by
  rw [carries state] at stopped
  split at stopped
  · cases stopped
  · cases stopped
    rfl

theorem CarriesOut.congr {work : InPlace σ α} {change other : σ → Except Setback (α × σ)}
    (carries : work.CarriesOut change) (same : ∀ state, change state = other state) :
    work.CarriesOut other := by
  intro state
  rw [← same state]
  exact carries state

/-- To look first, and then to go on with work that carries out a change, is to carry out both. -/
theorem CarriesOut.look_bind {next : α → InPlace σ β} {change : α → σ → Except Setback (β × σ)}
    (carries : ∀ a, (next a).CarriesOut (change a)) (judge : σ → Except Setback α) :
    (look judge >>= next).CarriesOut fun state => judge state >>= fun a => change a state := by
  intro state
  rw [run_look_bind]
  cases judged : judge state with
  | error refusal => simp only [judged, bind, Except.bind]
  | ok a =>
    simp only [judged, bind, Except.bind]
    exact carries a state

end InPlace

/-- Work on the record under a key. The ledger keeps what becomes of the record, also when the work
stops. -/
def Ledger.visit {κ α β : Type} [DecidableEq κ] (unknown : Refusal) (key : κ)
    (work : InPlace α β) : InPlace (Ledger κ α) β := do
  match (← get).get? key with
  | none => throw (.refused unknown)
  | some record =>
    let (result, left) := work.run.run record
    modify fun ledger => ledger.update key fun _ => left
    liftExcept result

/-- Work on a record carries out its change of the ledger if it carries out that of the record. -/
theorem Ledger.visit_carriesOut {κ α β : Type} [DecidableEq κ] {work : InPlace α β}
    {change : α → Except Setback (β × α)} (carries : work.CarriesOut change) (unknown : Refusal)
    (key : κ) : (Ledger.visit unknown key work).CarriesOut fun ledger =>
      match ledger.get? key with
      | none => .error (.refused unknown)
      | some record => (change record).map fun (result, next) =>
          (result, ledger.update key fun _ => next) := by
  intro ledger
  rw [visit, InPlace.run_get_bind]
  cases found : ledger.get? key with
  | none =>
    simp only [found]
    rfl
  | some record =>
    have left := carries record
    cases changed : change record with
    | ok pair =>
      simp only [changed] at left
      simp only [found, left, changed, InPlace.run_modify_bind, Except.map]
      rfl
    | error refusal =>
      have same : ledger.update key (fun _ => record) = ledger :=
        update_eq_self fun other there => Option.some.inj (found.symm.trans there)
      simp only [changed] at left
      simp only [found, left, changed, InPlace.run_modify_bind, Except.map, same]
      rfl

namespace Job

/-- The job is given to an engine, field by field. -/
def assignInPlace (key : Uuid) (engine : String) (now : Instant) : InPlace Job Unit := do
  InPlace.look fun job =>
    if job.status = .pending then .ok ()
    else .error (.refused (.jobStatus key job.status .pending))
  modify fun job => { job with status := .assigned }
  modify fun job => { job with assignedEngine := some engine }
  modify fun job => { job with lastEngine := some engine }
  modify fun job => { job with assignedAt := some now }
  modify fun job => { job with updatedAt := now }

def completeInPlace (key : Uuid) (outputUrl : String) (now : Instant) : InPlace Job Unit := do
  InPlace.look fun _ => requireText .outputUrl outputUrl
  InPlace.look fun job =>
    if job.status = .assigned then .ok ()
    else .error (.refused (.jobStatus key job.status .assigned))
  modify fun job => { job with status := .completed }
  modify fun job => { job with assignedEngine := none }
  modify fun job => { job with assignedAt := none }
  modify fun job => { job with outputUrl := some outputUrl }
  modify fun job => { job with updatedAt := now }

/-- The job fails, field by field. The counter is the first of them, and it may have no room. -/
def failInPlace (reason : String) (now : Instant) : InPlace Job FailureOutcome := do
  InPlace.look fun job =>
    if job.status = .assigned then .ok ()
    else .error (.refused (.jobStatus job.id job.status .assigned))
  let retries ← InPlace.look fun job =>
    match job.nextRetries? with
    | some retries => .ok retries
    | none => .error (.broken .counterFull)
  modify fun job => { job with retries := retries }
  modify fun job => { job with assignedEngine := none }
  modify fun job => { job with assignedAt := none }
  modify fun job => { job with updatedAt := now }
  let job ← get
  if job.retries ≤ job.maxRetries then
    modify fun job => { job with status := .pending }
    modify fun job => { job with errorMessage := some reason }
    return .requeued job.retries job.maxRetries
  else
    let message := Job.finalReason job.retries reason
    modify fun job => { job with status := .failedPermanently }
    modify fun job => { job with errorMessage := some message }
    return .failedPermanently job.retries message

theorem assignInPlace_carriesOut (key : Uuid) (engine : String) (now : Instant) :
    (assignInPlace key engine now).CarriesOut fun job =>
      (if job.status = .pending then .ok ()
        else .error (.refused (.jobStatus key job.status .pending))) >>=
          fun _ => .ok ((), job.assign engine now) := by
  apply InPlace.CarriesOut.look_bind
  intro _ job
  rfl

theorem completeInPlace_carriesOut (key : Uuid) (outputUrl : String) (now : Instant) :
    (completeInPlace key outputUrl now).CarriesOut fun job =>
      liftM (requireText .outputUrl outputUrl) >>= fun _ =>
        (if job.status = .assigned then .ok ()
          else .error (.refused (.jobStatus key job.status .assigned))) >>=
            fun _ => .ok ((), job.complete outputUrl now) := by
  apply InPlace.CarriesOut.look_bind
  intro _
  apply InPlace.CarriesOut.look_bind
  intro _ job
  rfl

theorem failInPlace_carriesOut (reason : String) (now : Instant) :
    (failInPlace reason now).CarriesOut (Job.fail reason now) := by
  have carries : (failInPlace reason now).CarriesOut fun job =>
      (if job.status = .assigned then .ok ()
        else .error (.refused (.jobStatus job.id job.status .assigned))) >>= fun _ =>
          (match job.nextRetries? with
            | some retries => .ok retries
            | none => .error (.broken .counterFull)) >>= fun retries =>
              .ok (job.failed retries reason now) := by
    apply InPlace.CarriesOut.look_bind
    intro _
    apply InPlace.CarriesOut.look_bind
    intro retries job
    simp only [failed, InPlace.run_modify_bind, InPlace.run_get_bind]
    split <;> rfl
  refine carries.congr fun job => ?_
  simp only [fail]
  split
  · cases job.nextRetries? <;> rfl
  · rfl

end Job

inductive JobEdit : Type → Type where
  | create (id : Uuid) (request : JobRequest) : JobEdit Uuid
  | assign (id : Uuid) (engine : String) : JobEdit Unit
  | complete (id : Uuid) (outputUrl : String) : JobEdit Unit
  | fail (id : Uuid) (reason : String) : JobEdit FailureOutcome

namespace JobEdit

variable {α : Type}

def change (now : Instant) : JobEdit α → JobLedger → Except Setback (α × JobLedger)
  | create id request, jobs => do return (id, ← jobs.submit id request now)
  | assign id engine, jobs => do return ((), ← jobs.assign id engine now)
  | complete id outputUrl, jobs => do return ((), ← jobs.complete id outputUrl now)
  | fail id reason, jobs => jobs.fail id reason now

def inPlace (now : Instant) : JobEdit α → InPlace JobLedger α
  | create id request => do
    InPlace.look fun _ => request.check
    modify fun jobs => jobs.put id (Job.submitted id request now)
    return id
  | assign id engine => Ledger.visit (.unknownJob id) id (Job.assignInPlace id engine now)
  | complete id outputUrl =>
    Ledger.visit (.unknownJob id) id (Job.completeInPlace id outputUrl now)
  | fail id reason => Ledger.visit (.unknownJob id) id (Job.failInPlace reason now)

theorem inPlace_carriesOut (edit : JobEdit α) (now : Instant) :
    (edit.inPlace now).CarriesOut (edit.change now) := by
  cases edit with
  | create id request =>
    have carries : (inPlace now (create id request)).CarriesOut fun jobs =>
        request.check >>= fun _ => .ok (id, jobs.put id (Job.submitted id request now)) := by
      apply InPlace.CarriesOut.look_bind
      intro _ jobs
      rfl
    refine carries.congr fun jobs => ?_
    simp only [change, JobLedger.submit]
    cases request.check <;> rfl
  | assign id engine =>
    refine (Ledger.visit_carriesOut (Job.assignInPlace_carriesOut id engine now) _ id).congr
      fun jobs => ?_
    simp only [change, JobLedger.assign, JobLedger.find, bind, Except.bind]
    cases found : jobs.get? id with
    | none => rfl
    | some job =>
      rw [← Ledger.update_const found (Job.assign engine now)]
      by_cases waiting : job.status = .pending
      · simp only [waiting, if_true]
        rfl
      · simp only [waiting, if_false]
        rfl
  | complete id outputUrl =>
    refine (Ledger.visit_carriesOut (Job.completeInPlace_carriesOut id outputUrl now) _ id).congr
      fun jobs => ?_
    simp only [change, JobLedger.complete, JobLedger.find, bind, Except.bind]
    cases found : jobs.get? id with
    | none => rfl
    | some job =>
      rw [← Ledger.update_const found (Job.complete outputUrl now)]
      cases requireText .outputUrl outputUrl with
      | error refusal => rfl
      | ok =>
        by_cases held : job.status = .assigned
        · simp only [held, if_true]
          rfl
        · simp only [held, if_false]
          rfl
  | fail id reason =>
    refine (Ledger.visit_carriesOut (Job.failInPlace_carriesOut reason now) _ id).congr
      fun jobs => ?_
    simp only [change, JobLedger.fail, JobLedger.find, bind, Except.bind]
    cases found : jobs.get? id with
    | none => rfl
    | some job =>
      change (job.fail reason now).map _ = (job.fail reason now).bind _
      cases job.fail reason now <;> rfl

end JobEdit

namespace Engine

def refreshInPlace (report : Heartbeat) (now : Instant) : InPlace Engine Unit := do
  modify fun engine =>
    { engine with
      status := match engine.currentJob, report.status with
        | some _, .idle => .busy
        | _, status => status }
  modify fun engine => { engine with storageCapacity := report.storageCapacity }
  modify fun engine => { engine with lastHeartbeat := now }

def bindInPlace (key : String) (job : Uuid) : InPlace Engine Unit := do
  InPlace.look fun engine =>
    if engine.status = .idle then .ok ()
    else .error (.refused (.engineStatus key engine.status .idle))
  modify fun engine => { engine with status := .busy }
  modify fun engine => { engine with currentJob := some job }

def releaseInPlace : InPlace Engine Unit := do
  modify fun engine => { engine with status := .idle }
  modify fun engine => { engine with currentJob := none }

theorem refreshInPlace_carriesOut (report : Heartbeat) (now : Instant) :
    (refreshInPlace report now).CarriesOut fun engine => .ok ((), engine.refresh report now) := by
  intro engine
  have status : (match engine.currentJob, report.status with
      | some _, .idle => .busy
      | _, status => status) =
        if engine.currentJob.isSome then .busy else report.status := by
    cases engine.currentJob <;> cases report.status <;> rfl
  simp only [refresh, ← status]
  rfl

theorem bindInPlace_carriesOut (key : String) (job : Uuid) :
    (bindInPlace key job).CarriesOut fun engine =>
      (if engine.status = .idle then .ok ()
        else .error (.refused (.engineStatus key engine.status .idle))) >>=
          fun _ => .ok ((), engine.bind job) := by
  apply InPlace.CarriesOut.look_bind
  intro _ engine
  rfl

theorem releaseInPlace_carriesOut :
    releaseInPlace.CarriesOut fun engine => .ok ((), engine.release) := by
  intro engine
  rfl

end Engine

inductive EngineEdit where
  | report (heartbeat : Heartbeat)
  | benchmark (id : String) (time : Binary64)
  | bind (id : String) (job : Uuid)
  | release (id : String)

namespace EngineEdit

def change (now : Instant) : EngineEdit → EnginePool → Except Setback (Unit × EnginePool)
  | report heartbeat, engines => do return ((), ← engines.report heartbeat now)
  | benchmark id time, engines => do return ((), ← engines.benchmark id time)
  | bind id job, engines => do return ((), ← engines.bind id job)
  | release id, engines => do return ((), ← engines.release id)

def inPlace (now : Instant) : EngineEdit → InPlace EnginePool Unit
  | report heartbeat => do
    InPlace.look fun _ => requireText .engineId heartbeat.engineId
    InPlace.look fun _ => requireAmount .storageCapacity heartbeat.storageCapacity
    match (← get).get? heartbeat.engineId with
    | some _ =>
      Ledger.visit (.unknownEngine heartbeat.engineId) heartbeat.engineId
        (Engine.refreshInPlace heartbeat now)
    | none =>
      modify fun engines => engines.put heartbeat.engineId (Engine.registered heartbeat now)
  | benchmark id time => do
    InPlace.look fun _ => requireAmount .benchmarkTime time
    Ledger.visit (.unknownEngine id) id do
      modify fun engine => { engine with benchmarkTime := some time }
  | bind id job => Ledger.visit (.unknownEngine id) id (Engine.bindInPlace id job)
  | release id => Ledger.visit (.unknownEngine id) id Engine.releaseInPlace

theorem inPlace_carriesOut (edit : EngineEdit) (now : Instant) :
    (edit.inPlace now).CarriesOut (edit.change now) := by
  cases edit with
  | report heartbeat =>
    have carries : (inPlace now (report heartbeat)).CarriesOut fun engines =>
        liftM (requireText .engineId heartbeat.engineId) >>= fun _ =>
          liftM (requireAmount .storageCapacity heartbeat.storageCapacity) >>= fun _ =>
            .ok ((), engines.noted heartbeat now) := by
      apply InPlace.CarriesOut.look_bind
      intro _
      apply InPlace.CarriesOut.look_bind
      intro _ engines
      rw [InPlace.run_get_bind]
      cases known : engines.get? heartbeat.engineId with
      | none =>
        simp only [EnginePool.noted_unknown known]
        rfl
      | some engine =>
        have visited := Ledger.visit_carriesOut (Engine.refreshInPlace_carriesOut heartbeat now)
          (.unknownEngine heartbeat.engineId) heartbeat.engineId engines
        simp only [known, Except.map, Ledger.update_const known (Engine.refresh heartbeat now)]
          at visited
        simp only [EnginePool.noted_known known]
        exact visited
    refine carries.congr fun engines => ?_
    simp only [change, EnginePool.report_eq]
    cases requireText .engineId heartbeat.engineId with
    | error refusal => rfl
    | ok => cases requireAmount .storageCapacity heartbeat.storageCapacity <;> rfl
  | benchmark id time =>
    have sets : (modify fun engine => { engine with benchmarkTime := some time } :
        InPlace Engine Unit).CarriesOut fun engine =>
          .ok ((), { engine with benchmarkTime := some time }) := by
      intro engine
      rfl
    have carries := InPlace.CarriesOut.look_bind
      (fun _ => Ledger.visit_carriesOut sets (.unknownEngine id) id)
      fun _ => requireAmount .benchmarkTime time
    refine carries.congr fun engines => ?_
    simp only [change, EnginePool.benchmark, EnginePool.find, Bind.bind, Except.bind]
    cases requireAmount .benchmarkTime time with
    | error refusal => rfl
    | ok =>
      cases known : engines.get? id with
      | none => rfl
      | some engine =>
        rw [← Ledger.update_const known fun engine => { engine with benchmarkTime := some time }]
        rfl
  | bind id job =>
    refine (Ledger.visit_carriesOut (Engine.bindInPlace_carriesOut id job) _ id).congr
      fun engines => ?_
    simp only [change, EnginePool.bind, EnginePool.find, Bind.bind, Except.bind]
    cases known : engines.get? id with
    | none => rfl
    | some engine =>
      rw [← Ledger.update_const known (Engine.bind job)]
      by_cases idle : engine.status = .idle
      · simp only [idle, if_true]
        rfl
      · simp only [idle, if_false]
        rfl
  | release id =>
    refine (Ledger.visit_carriesOut Engine.releaseInPlace_carriesOut _ id).congr
      fun engines => ?_
    simp only [change, EnginePool.release, EnginePool.find, Bind.bind, Except.bind]
    cases known : engines.get? id with
    | none => rfl
    | some engine =>
      rw [← Ledger.update_const known Engine.release]
      rfl

end EngineEdit

end JobDispatch
