import JobDispatch.Pairing
import JobDispatch.Proofs.Job
set_option autoImplicit false

namespace JobDispatch

/-- The engine after it was freed from a job; one that is bound to another job stays as it was. -/
def Engine.freedFrom (job : Uuid) (engine : Engine) : Engine :=
  if engine.currentJob.all fun current => current = job then engine.release else engine

namespace Engine

theorem freedFrom_eq_or (job : Uuid) (engine : Engine) :
    engine.freedFrom job = engine.release ∨ engine.freedFrom job = engine := by
  unfold freedFrom
  split
  · exact .inl rfl
  · exact .inr rfl

@[simp] theorem freedFrom_release (job : Uuid) (engine : Engine) :
    engine.release.freedFrom job = engine.release := rfl

/-- An engine is freed from two jobs in either order. -/
theorem freedFrom_comm (first second : Uuid) (engine : Engine) :
    (engine.freedFrom first).freedFrom second = (engine.freedFrom second).freedFrom first := by
  rcases engine.freedFrom_eq_or first with free | held
  · rcases engine.freedFrom_eq_or second with also | other
    · rw [free, also, freedFrom_release, freedFrom_release]
    · rw [free, other, freedFrom_release, free]
  · rcases engine.freedFrom_eq_or second with free | other
    · rw [held, free, freedFrom_release]
    · rw [held, other, held]

theorem release_refresh {report : Heartbeat} (idle : report.status = .idle) (now : Time.Instant)
    (engine : Engine) : (engine.refresh report now).release = engine.release.refresh report now := by
  simp [refresh, release, idle]

/-- An engine that reports to be idle is freed from a job before the report or after it. -/
theorem freedFrom_refresh {report : Heartbeat} (idle : report.status = .idle)
    (now : Time.Instant) (job : Uuid) (engine : Engine) :
    (engine.refresh report now).freedFrom job = (engine.freedFrom job).refresh report now := by
  have current : (engine.refresh report now).currentJob = engine.currentJob := rfl
  unfold freedFrom
  rw [current]
  split
  · exact release_refresh idle now engine
  · rfl

end Engine

def Heartbeat.IsAcceptable (report : Heartbeat) : Prop :=
  Text.isBlankText report.engineId = false ∧ report.storageCapacity.isNonNegative = true

namespace EnginePool

theorem find_eq_ok {engines : EnginePool} {id : String} {engine : Engine} :
    find engines id = .ok engine ↔ engines.get? id = some engine := by
  simp only [find]
  split <;> simp_all

section Report

variable {engines : EnginePool} {report : Heartbeat} {now : Time.Instant}

/-- The engines after a report that can be taken in. -/
def noted (report : Heartbeat) (now : Time.Instant) (engines : EnginePool) : EnginePool :=
  if (engines.get? report.engineId).isSome then
    engines.update report.engineId (Engine.refresh report now)
  else engines.put report.engineId (Engine.registered report now)

theorem noted_known {engine : Engine} (known : engines.get? report.engineId = some engine) :
    engines.noted report now = engines.update report.engineId (Engine.refresh report now) := by
  rw [noted, known]
  rfl

theorem noted_unknown (unknown : engines.get? report.engineId = none) :
    engines.noted report now = engines.put report.engineId (Engine.registered report now) := by
  rw [noted, unknown]
  rfl

theorem isSome_get?_noted (report : Heartbeat) (now : Time.Instant) (engines : EnginePool) :
    ((engines.noted report now).get? report.engineId).isSome = true := by
  cases known : engines.get? report.engineId with
  | none => rw [noted_unknown known, Ledger.get?_put, if_pos rfl, Option.isSome_some]
  | some engine => rw [noted_known known, Ledger.get?_update_self _ known, Option.isSome_some]

/-- Whether a report is refused does not depend on the engines. -/
theorem report_eq (report : Heartbeat) (now : Time.Instant) (engines : EnginePool) :
    EnginePool.report engines report now = (do
      requireText .engineId report.engineId
      requireAmount .storageCapacity report.storageCapacity
      return engines.noted report now) := by
  cases known : engines.get? report.engineId with
  | none => simp only [EnginePool.report, known, noted_unknown known]
  | some engine => simp only [EnginePool.report, known, noted_known known]

end Report

theorem report_eq_ok {engines after : EnginePool} {report : Heartbeat} {now : Time.Instant} :
    EnginePool.report engines report now = .ok after ↔ report.IsAcceptable ∧
      after = if (engines.get? report.engineId).isSome then
          engines.update report.engineId (Engine.refresh report now)
        else engines.put report.engineId (Engine.registered report now) := by
  simp only [EnginePool.report, bind_eq_ok, requireText_eq_ok, requireAmount_eq_ok, exists_const,
    Heartbeat.IsAcceptable, and_assoc]
  refine and_congr_right fun _ => and_congr_right fun _ => ?_
  cases known : engines.get? report.engineId with
  | none => simp [pure, Except.pure, eq_comm]
  | some engine => simp [pure, Except.pure, eq_comm]

theorem benchmark_eq_ok {engines after : EnginePool} {id : String} {time : Binary64} :
    EnginePool.benchmark engines id time = .ok after ↔ time.isNonNegative = true ∧
      ∃ engine, engines.get? id = some engine
        ∧ after = engines.update id fun engine => { engine with benchmarkTime := some time } := by
  simp only [EnginePool.benchmark, bind_eq_ok, requireAmount_eq_ok, exists_const, find_eq_ok, pure,
    Except.pure, Except.ok.injEq]
  simp only [eq_comm]

theorem bind_engine_eq_ok {engines after : EnginePool} {id : String} {job : Uuid} :
    EnginePool.bind engines id job = .ok after ↔ ∃ engine, engines.get? id = some engine
      ∧ engine.status = .idle ∧ after = engines.update id (Engine.bind job) := by
  simp only [EnginePool.bind, bind_eq_ok, find_eq_ok]
  constructor
  · rintro ⟨engine, found, rest⟩
    split at rest
    · rename_i idle
      cases rest
      exact ⟨engine, found, idle, rfl⟩
    · cases rest
  · rintro ⟨engine, found, idle, changed⟩
    refine ⟨engine, found, ?_⟩
    rw [if_pos idle, changed]
    rfl

/-- To free the engine that held a job is to change its record, if it is on file. -/
theorem releaseFrom_some (engines : EnginePool) (job : Uuid) (name : String) :
    engines.releaseFrom job (some name) = engines.update name (Engine.freedFrom job) := by
  simp only [releaseFrom]
  split
  · rename_i unknown
    symm
    apply Ledger.update_eq_self
    intro engine known
    rw [unknown] at known
    cases known
  · rename_i engine known
    split
    · rename_i own
      apply Ledger.update_congr
      intro other same
      cases known.symm.trans same
      rw [Engine.freedFrom, if_pos own]
    · rename_i elsewhere
      symm
      apply Ledger.update_eq_self
      intro other same
      cases known.symm.trans same
      rw [Engine.freedFrom, if_neg elsewhere]

/-- Only the engine that held the job is touched. -/
theorem get?_releaseFrom (engines : EnginePool) (job : Uuid) (holder : Option String)
    (id : String) : (engines.releaseFrom job holder).get? id =
      if holder = some id then (engines.get? id).map (Engine.freedFrom job)
      else engines.get? id := by
  cases holder with
  | none => simp [releaseFrom]
  | some held =>
    by_cases same : held = id
    · subst same
      rw [if_pos rfl]
      simp only [releaseFrom]
      split
      · rename_i missing
        simp [missing]
      · rename_i engine found
        by_cases free : engine.currentJob.all fun current => current = job
        · rw [if_pos free, Ledger.get?_update_self _ found, found]
          simp [Engine.freedFrom, free]
        · rw [if_neg free, found]
          simp [Engine.freedFrom, free]
    · rw [if_neg (by simpa using same)]
      simp only [releaseFrom]
      split
      · rfl
      · split
        · exact Ledger.get?_update_of_ne _ (Ne.symm same)
        · rfl

/-- Where an engine stands after a release. -/
theorem get?_releaseFrom_eq_some {engines : EnginePool} {job : Uuid} {holder : Option String}
    {id : String} {engine : Engine} : (engines.releaseFrom job holder).get? id = some engine ↔
      (∃ old, holder = some id ∧ engines.get? id = some old ∧ old.freedFrom job = engine)
        ∨ holder ≠ some id ∧ engines.get? id = some engine := by
  rw [get?_releaseFrom]
  by_cases same : holder = some id
  · simp [same, Option.map_eq_some_iff]
  · simp [same]

/-- What holds of all engines holds still after a release that keeps it. -/
theorem forall_releaseFrom {engines : EnginePool} {property : String → Engine → Prop}
    {job : Uuid} {holder : Option String}
    (holds : ∀ id engine, engines.get? id = some engine → property id engine)
    (kept : ∀ id engine, property id engine → property id engine.release) :
    ∀ id engine, (engines.releaseFrom job holder).get? id = some engine → property id engine := by
  intro id engine found
  rcases get?_releaseFrom_eq_some.1 found with ⟨old, _, known, changed⟩ | ⟨_, known⟩
  · subst changed
    simp only [Engine.freedFrom]
    split
    · exact kept id old (holds id old known)
    · exact holds id old known
  · exact holds id engine known

end EnginePool

theorem Pairing.mem_of_choose {rule : Pairing} {jobSize : Binary64} {engines : List Engine}
    {engine : Engine} (chosen : rule.choose jobSize engines = some engine) : engine ∈ engines := by
  simp only [choose] at chosen
  split at chosen
  · exact mem_of_slowest chosen
  · exact mem_of_fastest chosen

/-- The engine chosen for a job is on file, idle and has a benchmark. -/
theorem Pairing.choose_spec {rule : Pairing} {jobSize : Binary64} {engines : EnginePool}
    {now : Time.Instant} {engine : Engine}
    (chosen : rule.choose jobSize (rule.candidates engines now) = some engine) :
    engine.isEligible = true ∧ rule.accepts now engine = true
      ∧ ∃ key, engines.get? key = some engine := by
  have member := mem_of_choose chosen
  simp only [candidates, EnginePool.eligible, List.mem_filter] at member
  exact ⟨member.1.2, member.2, Ledger.mem_records_iff.1 member.1.1⟩

end JobDispatch
