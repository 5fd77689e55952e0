import JobDispatch.Proofs.Board.Retries
set_option autoImplicit false

namespace JobDispatch

open Time

def Job.isTried (job : Job) : Bool := job.lastEngine.isSome

theorem Job.isTried_failed (job : Job) (retries : UInt32) (reason : String) (now : Instant) :
    (job.failed retries reason now).2.isTried = job.isTried := by
  obtain ⟨status, message, same⟩ := job.failed_record retries reason now
  rw [same]
  rfl

/-- All jobs before one that was tried were tried. -/
def JobLedger.InTurn (jobs : JobLedger) : Prop :=
  jobs.records.Pairwise fun earlier later => later.isTried = true → earlier.isTried = true

namespace JobLedger

variable {jobs : JobLedger} {id : Uuid} {job : Job}

/-- The tried jobs come first. -/
theorem InTurn.filter_prefix (inTurn : jobs.InTurn) :
    jobs.records.filter Job.isTried <+: jobs.records := by
  simp only [InTurn] at inTurn
  generalize jobs.records = records at inTurn
  induction inTurn with
  | nil => exact List.nil_prefix
  | @cons job later before _ ih =>
    by_cases tried : job.isTried = true
    · rw [List.filter_cons_of_pos tried]
      exact (List.prefix_cons_inj job).2 ih
    · have none : later.filter Job.isTried = [] :=
        List.filter_eq_nil_iff.2 fun other member => mt (before other member) tried
      rw [List.filter_cons_of_neg tried, none]
      exact List.nil_prefix

theorem InTurn.put (inTurn : jobs.InTurn) (fresh : jobs.get? id = none)
    (untried : job.isTried = false) : InTurn (jobs.put id job) := by
  have records : (Ledger.put jobs id job).records = jobs.records ++ [job] := by
    simp only [Ledger.records, Ledger.entries_put_of_get?_none job fresh, List.map_append]
    rfl
  rw [InTurn, records, List.pairwise_append]
  refine ⟨inTurn, List.pairwise_singleton .., ?_⟩
  intro earlier _ last single tried
  rw [List.mem_singleton.1 single, untried] at tried
  cases tried

/-- A change that neither begins nor undoes the trying of a job keeps all in turn. -/
theorem InTurn.update (inTurn : jobs.InTurn)
    (own : ∀ key job, jobs.get? key = some job → key = job.id) (found : jobs.get? id = some job)
    {change : Job → Job} (same : (change job).isTried = job.isTried) :
    InTurn (jobs.update id change) := by
  obtain ⟨front, back, split⟩ := List.append_of_mem (Ledger.mem_records_iff.2 ⟨id, found⟩)
  rw [InTurn, split] at inTurn
  rw [own id job found, InTurn, Ledger.records_update_of_split own split]
  simpa only [List.pairwise_append, List.pairwise_cons, List.mem_cons, forall_eq_or_imp, same]
    using inTurn

/-- Trying the oldest job that waits keeps all in turn, if all that do not wait were tried. -/
theorem InTurn.update_firstPending (inTurn : jobs.InTurn)
    (own : ∀ key job, jobs.get? key = some job → key = job.id)
    (settled : ∀ key job, jobs.get? key = some job → job.status ≠ .pending → job.isTried = true)
    (first : firstPending jobs = some job) {change : Job → Job}
    (tried : (change job).isTried = true) : InTurn (jobs.update job.id change) := by
  obtain ⟨_, front, back, split, busy⟩ := List.find?_eq_some_iff_append.1 first
  have before (other : Job) (member : other ∈ front) : other.isTried = true := by
    obtain ⟨key, found⟩ := Ledger.mem_records_iff.1 (split ▸ List.mem_append_left _ member)
    exact settled key other found (by simpa using busy other member)
  rw [InTurn, split, List.pairwise_append, List.pairwise_cons] at inTurn
  obtain ⟨ahead, ⟨_, behind⟩, _⟩ := inTurn
  rw [InTurn, Ledger.records_update_of_split own split, List.pairwise_append, List.pairwise_cons]
  exact ⟨ahead, ⟨fun _ _ _ => tried, behind⟩, fun other member _ _ _ => before other member⟩

/-- The jobs stand in the order in which the log brought them in, and those that it tells to have
been given to an engine stand before all others, which wait. -/
structure Sequenced (log : Log) (jobs : JobLedger) : Prop where
  submitted : jobs.keys = log.submittedJobs
  known : ∀ id, 0 < log.bindings id → id ∈ jobs.keys
  tried : ∀ id job, jobs.get? id = some job → (job.isTried = true ↔ 0 < log.bindings id)
  settled : ∀ id job, jobs.get? id = some job → job.status ≠ .pending → job.isTried = true
  inTurn : jobs.InTurn

variable {log later : Log} {now : Instant}

theorem sequenced_empty : Sequenced [] Ledger.empty where
  submitted := rfl
  known := fun _ bound => absurd bound (Nat.lt_irrefl 0)
  tried := fun _ _ found => nomatch found
  settled := fun _ _ found => nomatch found
  inTurn := List.Pairwise.nil

/-- Logs that bring in and give away the same jobs sequence them in the same way. -/
theorem Sequenced.congr (sequenced : Sequenced log jobs)
    (submitted : later.submittedJobs = log.submittedJobs)
    (bindings : ∀ id, later.bindings id = log.bindings id) : Sequenced later jobs := by
  refine ⟨sequenced.submitted.trans submitted.symm, ?_, ?_, sequenced.settled, sequenced.inTurn⟩
  · intro id bound
    exact sequenced.known id (bindings id ▸ bound)
  · intro id job found
    rw [bindings]
    exact sequenced.tried id job found

theorem Sequenced.put (sequenced : Sequenced log jobs) (new : jobs.get? id = none)
    (request : JobRequest) : Sequenced (log ++ [(now, .submitted id)])
      (Ledger.put jobs id (Job.submitted id request now)) := by
  obtain ⟨submitted, known, tried, settled, inTurn⟩ := sequenced
  have absent := Ledger.get?_eq_none_iff.1 new
  have keys : (Ledger.put jobs id (Job.submitted id request now)).keys = jobs.keys ++ [id] := by
    rw [Ledger.keys_put, if_neg absent]
  have same (other : Uuid) : Log.bindings (log ++ [(now, .submitted id)]) other =
      log.bindings other := Log.bindings_step ..
  constructor
  · rw [keys, submitted, Log.submittedJobs_append]
    rfl
  · intro other bound
    rw [same] at bound
    rw [keys]
    exact List.mem_append_left _ (known other bound)
  · intro other job found
    rw [same]
    rcases Ledger.get?_put_eq_some.1 found with ⟨own, filed⟩ | ⟨_, there⟩
    · subst own filed
      constructor
      · exact fun wasTried => nomatch wasTried
      · exact fun bound => absurd (known other bound) absent
    · exact tried other job there
  · intro other job found busy
    rcases Ledger.get?_put_eq_some.1 found with ⟨own, filed⟩ | ⟨_, there⟩
    · subst own filed
      exact absurd rfl busy
    · exact settled other job there busy
  · exact inTurn.put new rfl

/-- The oldest job that waits is given to an engine. -/
theorem Sequenced.assign (sequenced : Sequenced log jobs)
    (own : ∀ key job, jobs.get? key = some job → key = job.id)
    (first : firstPending jobs = some job) (engine : String) :
    Sequenced (log ++ [(now, .bound job.id engine)])
      (jobs.update job.id (Job.assign engine now)) := by
  obtain ⟨submitted, known, tried, settled, inTurn⟩ := sequenced
  obtain ⟨_, key, there⟩ := firstPending_spec first
  have found : jobs.get? job.id = some job := own key job there ▸ there
  have filed : job.id ∈ jobs.keys := Ledger.mem_keys_of_get? found
  have count (other : Uuid) : Log.bindings (log ++ [(now, .bound job.id engine)]) other =
      log.bindings other + if job.id == other then 1 else 0 := Log.bindings_step ..
  constructor
  · rw [Ledger.keys_update, submitted, Log.submittedJobs_append]
    exact (List.append_nil _).symm
  · intro other bound
    rw [Ledger.keys_update]
    by_cases same : job.id = other
    · exact same ▸ filed
    · rw [count, if_neg (by simpa using same)] at bound
      exact known other bound
  · intro other record lookup
    rw [count]
    rcases Ledger.get?_update_eq_some.1 lookup with ⟨old, same, _, changed⟩ | ⟨apart, earlier⟩
    · subst same changed
      exact ⟨fun _ => by simp, fun _ => rfl⟩
    · rw [if_neg (by simpa using Ne.symm apart)]
      exact tried other record earlier
  · intro other record lookup busy
    rcases Ledger.get?_update_eq_some.1 lookup with ⟨old, _, _, changed⟩ | ⟨_, earlier⟩
    · subst changed
      rfl
    · exact settled other record earlier busy
  · exact inTurn.update_firstPending own settled first rfl

/-- A job that was tried is changed, and stays one that was. -/
theorem Sequenced.update (sequenced : Sequenced log jobs)
    (own : ∀ key job, jobs.get? key = some job → key = job.id) (found : jobs.get? id = some job)
    (held : job.status = .assigned) (change : Job → Job)
    (same : (change job).isTried = job.isTried) : Sequenced log (jobs.update id change) := by
  obtain ⟨submitted, known, tried, settled, inTurn⟩ := sequenced
  have wasTried := settled id job found (by rw [held]; decide)
  constructor
  · rw [Ledger.keys_update, submitted]
  · intro other bound
    rw [Ledger.keys_update]
    exact known other bound
  · intro other record lookup
    rcases Ledger.get?_update_eq_some.1 lookup with ⟨old, own, there, changed⟩ | ⟨_, earlier⟩
    · cases found.symm.trans there
      subst own changed
      rw [same]
      exact tried other job found
    · exact tried other record earlier
  · intro other record lookup busy
    rcases Ledger.get?_update_eq_some.1 lookup with ⟨old, _, there, changed⟩ | ⟨_, earlier⟩
    · cases found.symm.trans there
      subst changed
      rw [same, wasTried]
    · exact settled other record earlier busy
  · exact inTurn.update own found same

/-- If a job was given to an engine, then so were all that stand before it. -/
theorem Sequenced.bound_of_bound (sequenced : Sequenced log jobs)
    (own : ∀ key job, jobs.get? key = some job → key = job.id) {front back : List Uuid}
    (order : jobs.keys = front ++ id :: back) (bound : 0 < log.bindings id) {other : Uuid}
    (ahead : other ∈ front) : 0 < log.bindings other := by
  rw [Ledger.keys_eq_map_records own, List.map_eq_append_iff] at order
  obtain ⟨before, rest, split, fronts, backs⟩ := order
  obtain ⟨job, after, cut, same, _⟩ := List.map_eq_cons_iff.1 backs
  obtain ⟨earlier, member, name⟩ := List.mem_map.1 (fronts ▸ ahead)
  have filed (record : Job) (member : record ∈ jobs.records) :
      jobs.get? record.id = some record := by
    obtain ⟨key, found⟩ := Ledger.mem_records_iff.1 member
    exact own key record found ▸ found
  have found := filed job (by simp [split, cut])
  have there := filed earlier (by simp [split, member])
  rw [same] at found
  rw [name] at there
  have inTurn := sequenced.inTurn
  rw [InTurn, split, cut, List.pairwise_append] at inTurn
  have tried := (sequenced.tried id job found).2 bound
  exact (sequenced.tried other earlier there).1
    (inTurn.2.2 earlier member job List.mem_cons_self tried)

end JobLedger

namespace Board

variable {now : Instant} {board next : Board} {event : Event} {log : Log}

theorem Change.sequenced (change : Change now board event next) (storable : board.Storable)
    (new : ∀ id, event = .submitted id → board.jobs.get? id = none)
    (sequenced : board.jobs.Sequenced log) : next.jobs.Sequenced (log ++ [(now, event)]) := by
  have own (key : Uuid) (job : Job) (found : board.jobs.get? key = some job) : key = job.id :=
    (storable.jobs key job found).1
  have quiet {jobs : JobLedger} (silent : ∀ id, event.binds id = false)
      (none : event.submittedJob? = none) (kept : jobs.Sequenced log) :
      jobs.Sequenced (log ++ [(now, event)]) := by
    refine kept.congr ?_ fun id => ?_
    · rw [Log.submittedJobs_append]
      simp [Log.submittedJobs, none]
    · rw [Log.bindings_step, silent]
      rfl
  cases change with
  | @submitted id request accepted => exact sequenced.put (new id rfl) request
  | registered accepted unknown => exact quiet (fun _ => rfl) rfl sequenced
  | refreshed accepted known => exact quiet (fun _ => rfl) rfl sequenced
  | measured amount known => exact quiet (fun _ => rfl) rfl sequenced
  | bound first chosen found waiting known idle => exact sequenced.assign own first _
  | completed found held written =>
    exact quiet (fun _ => rfl) rfl (sequenced.update own found held _ rfl)
  | @failed id job retries reason found held counted =>
    exact quiet (fun _ => rfl) rfl (sequenced.update own found held
      (fun _ => (job.failed retries reason now).2) (job.isTried_failed retries reason now))

theorem History.sequenced (history : History empty log board) (fresh : Fresh empty log) :
    board.jobs.Sequenced log := by
  refine history.induction (fun log board => board.jobs.Sequenced log) fresh
    JobLedger.sequenced_empty ?_
  intro log board now event next before change new earlier
  exact change.sequenced (before.storable storable_empty) new earlier

/-- Whenever a job is given to an engine, all jobs that were submitted before it have been given to
one earlier. -/
theorem History.bound_before (history : History empty log board) (fresh : Fresh empty log)
    {id other : Uuid} {engine : String} {before after : Log} {front back : List Uuid}
    (parts : log = before ++ (now, .bound id engine) :: after)
    (order : log.submittedJobs = front ++ id :: back) (ahead : other ∈ front) :
    0 < before.bindings other := by
  rw [List.append_cons] at parts
  obtain ⟨middle, first, _⟩ := history.split parts
  have distinct := fresh.distinct
  rw [order, List.nodup_append] at distinct
  have apart : other ≠ id := distinct.2.2 other ahead id List.mem_cons_self
  rw [parts] at fresh order
  have sequenced := first.sequenced (first.fresh_split fresh).1
  have counted (job : Uuid) : Log.bindings (before ++ [(now, .bound id engine)]) job =
      before.bindings job + if id == job then 1 else 0 := Log.bindings_step ..
  have given : 0 < Log.bindings (before ++ [(now, .bound id engine)]) id := by
    rw [counted, if_pos (beq_self_eq_true id)]
    omega
  -- the job was on file when it was given away, and so were the ones before it
  have filed := sequenced.known id given
  rw [sequenced.submitted] at filed
  rw [Log.submittedJobs_append] at order
  have known : ∃ rest, middle.jobs.keys = front ++ id :: rest := by
    rw [sequenced.submitted]
    rcases List.append_eq_append_iff.1 order with ⟨more, same, _⟩ | ⟨more, same, rest⟩
    · exact absurd rfl (distinct.2.2 id (same ▸ List.mem_append_left _ filed) id
        List.mem_cons_self)
    · cases more with
      | nil =>
        rw [same, List.append_nil] at filed
        exact absurd rfl (distinct.2.2 id filed id List.mem_cons_self)
      | cons head more =>
        cases rest
        exact ⟨more, same⟩
  obtain ⟨rest, keys⟩ := known
  have tried := sequenced.bound_of_bound
    (fun key job found => ((first.storable storable_empty).jobs key job found).1) keys given ahead
  rwa [counted, if_neg (by simpa using Ne.symm apart)] at tried

end Board

end JobDispatch
