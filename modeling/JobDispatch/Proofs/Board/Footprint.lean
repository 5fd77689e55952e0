import JobDispatch.Proofs.Board.Growth
set_option autoImplicit false

namespace JobDispatch

open Time Desk

namespace Board

variable {board after : Board} {id : Uuid} {name : String} {old new : Engine} {now : Instant}

/-- An engine was freed from some jobs: one of them names it as its own, and the engine held no job
but one of them. -/
structure Frees (board : Board) (ids : List Uuid) (name : String) (old new : Engine) : Prop where
  named : ∃ id ∈ ids, ∃ job, board.jobs.get? id = some job ∧ job.assignedEngine = some name
  unbound : ∀ current, old.currentJob = some current → current ∈ ids
  freed : new = { old with status := .idle, currentJob := none }

theorem rewrites_releaseFrom {job : Job} (found : board.jobs.get? id = some job) :
    board.engines.Rewrites (board.Frees [id]) (board.engines.releaseFrom id job.assignedEngine) := by
  refine ⟨EnginePool.keys_releaseFrom .., fun name old known => ?_⟩
  rw [EnginePool.get?_releaseFrom]
  split
  · rename_i named
    refine ⟨old.freedFrom id, by rw [known, Option.map_some], ?_⟩
    simp only [Engine.freedFrom]
    split
    · rename_i own
      refine .inr ⟨⟨id, List.mem_singleton_self id, job, found, named⟩, ?_, rfl⟩
      intro current held
      rw [held] at own
      exact List.mem_singleton.2 (of_decide_eq_true own)
    · exact .inl rfl
  · exact ⟨old, known, .inl rfl⟩

namespace Frees

variable {middle : Board} {ids more : List Uuid} {mid : Engine}

theorem mono (frees : board.Frees ids name old new) (wider : ids ⊆ more) :
    board.Frees more name old new := by
  obtain ⟨own, member, job, found, named⟩ := frees.named
  exact ⟨⟨own, wider member, job, found, named⟩,
    fun current held => wider (frees.unbound current held), frees.freed⟩

/-- The jobs may be looked at earlier, if they were the same then. -/
theorem of_same_jobs (frees : middle.Frees ids name old new)
    (same : ∀ id ∈ ids, middle.jobs.get? id = board.jobs.get? id) :
    board.Frees ids name old new := by
  obtain ⟨own, member, job, found, named⟩ := frees.named
  exact ⟨⟨own, member, job, (same own member).symm.trans found, named⟩, frees.unbound, frees.freed⟩

/-- An engine that is freed again is as free as before. -/
theorem again (first : board.Frees ids name old mid) (second : middle.Frees more name mid new) :
    board.Frees ids name old new :=
  ⟨first.named, first.unbound, by rw [second.freed, first.freed]⟩

end Frees

/-- Nothing was touched but some jobs and the engines that were freed from them. -/
structure FreesOnly (board : Board) (ids : List Uuid) (after : Board) : Prop where
  jobs : board.jobs.Rewrites (fun id _ _ => id ∈ ids) after.jobs
  engines : board.engines.Rewrites (board.Frees ids) after.engines

/-- A report on a job touches that job, and frees its engine at most. -/
theorem Change.freesOnly {event : Event} (change : Change now board event after)
    (report : event.isReport = true) (about : event.job? = some id) :
    board.FreesOnly [id] after := by
  cases change with
  | completed found held written =>
    cases about
    exact ⟨Ledger.rewrites_update board.jobs _ fun _ _ => List.mem_singleton_self _,
      rewrites_releaseFrom found⟩
  | @failed _ job retries reason found held counted =>
    cases about
    exact ⟨Ledger.rewrites_update board.jobs (fun _ => (job.failed retries reason now).2) fun _ _ =>
      List.mem_singleton_self _, rewrites_releaseFrom found⟩
  | _ => cases report

/-- So do reports on several jobs: an engine that a later one would free is either as it was, or
free already. -/
theorem freesOnly_of_failAll {reason : String} {ids : List Uuid}
    {outcomes : List (Uuid × FailureOutcome)} (distinct : ids.Nodup)
    (accepted : board.failAll reason now ids = .ok (outcomes, after)) :
    board.FreesOnly ids after := by
  induction ids generalizing board outcomes with
  | nil =>
    cases accepted
    exact ⟨.refl .., .refl ..⟩
  | cons id ids ih =>
    obtain ⟨absent, rest⟩ := List.nodup_cons.1 distinct
    obtain ⟨⟨outcome, middle⟩, failed, later⟩ := bind_eq_ok.1 accepted
    obtain ⟨⟨others, last⟩, failedRest, equal⟩ := bind_eq_ok.1 later
    cases equal
    have change := change_of_fail failed
    -- no later job is the one that failed first, so that all are as they were in the beginning
    have same (other : Uuid) (member : other ∈ ids) :
        middle.jobs.get? other = board.jobs.get? other := by
      refine change.get?_job_of_ne fun about => absent ?_
      cases about
      exact member
    have first : board.FreesOnly [id] middle := change.freesOnly rfl rfl
    have second := ih rest failedRest
    have head : [id] ⊆ id :: ids := List.cons_subset_cons id (List.nil_subset ids)
    refine ⟨first.jobs.append second.jobs, first.engines.trans second.engines ?_ ?_ ?_⟩
    · exact fun _ _ _ frees => frees.mono head
    · exact fun _ _ _ frees => (frees.of_same_jobs same).mono (List.subset_cons_self id ids)
    · exact fun _ _ _ _ freed again => (freed.again again).mono head

/-- Nothing was touched but the jobs and the engines of some pairs. -/
structure TouchesOnly (board : Board) (pairs : List (Uuid × String)) (after : Board) : Prop where
  jobs : board.jobs.Rewrites (fun id _ _ => id ∈ pairs.map Prod.fst) after.jobs
  engines : board.engines.Rewrites (fun name _ _ => name ∈ pairs.map Prod.snd) after.engines

/-- Bringing a job and an engine together touches these two. -/
theorem touchesOnly_paired (board : Board) (id : Uuid) (name : String) (now : Instant) :
    board.TouchesOnly [(id, name)] (board.paired id name now) :=
  ⟨Ledger.rewrites_update board.jobs _ fun _ _ => List.mem_singleton_self _,
    Ledger.rewrites_update board.engines _ fun _ _ => List.mem_singleton_self _⟩

theorem Change.touchesOnly_of_bound (change : Change now board (.bound id name) after) :
    board.TouchesOnly [(id, name)] after := by
  cases change
  exact touchesOnly_paired ..

theorem TouchesOnly.append {middle : Board} {pairs more : List (Uuid × String)}
    (left : board.TouchesOnly pairs middle) (right : middle.TouchesOnly more after) :
    board.TouchesOnly (pairs ++ more) after := by
  constructor
  · rw [List.map_append]
    exact left.jobs.append right.jobs
  · rw [List.map_append]
    exact left.engines.append right.engines

/-- So it is with several pairs, one after another. -/
theorem History.touchesOnly_of_bound {start : Board} {pairs : List (Uuid × String)}
    (history : History start (Log.at now (pairs.map fun (job, engine) => .bound job engine)) board) :
    start.TouchesOnly pairs board := by
  induction pairs generalizing start with
  | nil =>
    rw [history.eq_of_nil]
    exact ⟨.refl .., .refl ..⟩
  | cons pair pairs ih =>
    have parts : Log.at now ((pair :: pairs).map fun (job, engine) => .bound job engine) =
      [(now, .bound pair.1 pair.2)] ++ Log.at now (pairs.map fun (job, engine) =>
        .bound job engine) := rfl
    obtain ⟨middle, first, rest⟩ := history.split parts
    exact first.change_of_single.touchesOnly_of_bound.append (ih rest)

end Board

namespace Operation

/-- What may differ on a board when an operation was answered. A submission files one job at the
end, if its id is new; a report files its engine at the end, if it is new. All others change records
in their places. -/
def Footprint (now : Instant) (before after : Board) : Operation → Answer → Prop
  | submit request, .submitted id => after.engines = before.engines
      ∧ (before.jobs.get? id = none →
        after.jobs.entries = before.jobs.entries ++ [(id, Job.submitted id request now)])
  | heartbeat report, .reported _ => after.jobs = before.jobs
      ∧ if (before.engines.get? report.engineId).isSome then
          before.engines.Rewrites (fun name old new => name = report.engineId ∧ new =
            { old with
              status := new.status
              storageCapacity := new.storageCapacity
              lastHeartbeat := new.lastHeartbeat }) after.engines
        else after.engines.entries =
          before.engines.entries ++ [(report.engineId, Engine.registered report now)]
  | benchmark engine time, .measured => after.jobs = before.jobs
      ∧ before.engines.Rewrites (fun name old new => name = engine ∧ new =
          { old with benchmarkTime := some time }) after.engines
  | complete job _, .completed | fail job _, .failed _ => before.FreesOnly [job] after
  | assign, .attempted outcome => before.TouchesOnly outcome.pair?.toList after
  | reclaim, .reclaimed outcomes => before.FreesOnly (outcomes.map Prod.fst) after
  | _, _ => False

variable {settings : Settings} {id : Uuid} {now : Instant} {board staged : Board}
  {operation : Operation} {answer : Answer}

theorem footprint_of_transition (storable : board.Storable)
    (accepted : operation.transition settings id now board = .ok (answer, staged)) :
    operation.Footprint now board staged answer := by
  cases operation with
  | submit request =>
    rw [transition, step_eq_ok] at accepted
    obtain ⟨⟨⟩, change, told⟩ := accepted
    obtain ⟨jobs, submitted, equal⟩ := bind_eq_ok.1 change
    obtain ⟨_, filed⟩ := JobLedger.submit_eq_ok.1 (Setback.lift_eq_ok.1 submitted)
    cases equal
    subst told filed
    exact ⟨rfl, Ledger.entries_put_of_get?_none _⟩
  | heartbeat report =>
    rw [transition, step_eq_ok] at accepted
    obtain ⟨status, change, told⟩ := accepted
    obtain ⟨engines, taken, rest⟩ := bind_eq_ok.1 change
    obtain ⟨engine, _, equal⟩ := bind_eq_ok.1 rest
    obtain ⟨_, filed⟩ := EnginePool.report_eq_ok.1 (Setback.lift_eq_ok.1 taken)
    cases equal
    subst told filed
    refine ⟨rfl, ?_⟩
    split
    · exact Ledger.rewrites_update board.engines _ fun old _ => ⟨rfl, rfl⟩
    · rename_i unknown
      exact Ledger.entries_put_of_get?_none _ (by simpa using unknown)
  | benchmark engine time =>
    rw [transition, step_eq_ok] at accepted
    obtain ⟨⟨⟩, change, told⟩ := accepted
    obtain ⟨engines, taken, equal⟩ := bind_eq_ok.1 change
    obtain ⟨_, _, _, filed⟩ := EnginePool.benchmark_eq_ok.1 (Setback.lift_eq_ok.1 taken)
    cases equal
    subst told filed
    exact ⟨rfl, Ledger.rewrites_update board.engines
      (fun engine => { engine with benchmarkTime := some time }) fun old _ => ⟨rfl, rfl⟩⟩
  | complete job outputUrl =>
    rw [transition, step_eq_ok] at accepted
    obtain ⟨⟨⟩, change, told⟩ := accepted
    obtain ⟨after, completed, equal⟩ := bind_eq_ok.1 change
    cases equal
    subst told
    exact (Board.change_of_complete (Setback.lift_eq_ok.1 completed)).freesOnly rfl rfl
  | fail job reason =>
    rw [transition, step_eq_ok] at accepted
    obtain ⟨outcome, failed, told⟩ := accepted
    subst told
    exact (Board.change_of_fail failed).freesOnly rfl rfl
  | assign =>
    simp only [transition] at accepted
    rcases Board.assignNext_spec storable settings.pairing now with
      ⟨_, attempt⟩ | ⟨job, _, attempt⟩ | ⟨job, engine, after, attempt, change⟩
    · rw [attempt] at accepted
      cases accepted
      exact ⟨.refl .., .refl ..⟩
    · rw [attempt] at accepted
      cases accepted
      exact ⟨.refl .., .refl ..⟩
    · rw [attempt] at accepted
      cases accepted
      exact change.touchesOnly_of_bound
  | reclaim =>
    simp only [transition] at accepted
    split at accepted
    · cases accepted
      exact ⟨.refl .., .refl ..⟩
    · split at accepted
      · cases accepted
      · obtain ⟨outcomes, failed, told⟩ := step_eq_ok.1 accepted
        subst told
        have touched := Board.freesOnly_of_failAll (storable.nodup_assignedBefore _) failed
        rwa [← Board.jobs_of_failAll failed] at touched

end Operation

end JobDispatch
