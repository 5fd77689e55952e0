import JobDispatch.Proofs.Board.Growth
set_option autoImplicit false

/- Where a job was last: the last engine in its record is the one of the last assignment in the log,
whatever became of the job since. A failed save leaves no entry in the log and so no trace here. -/
namespace JobDispatch

open Time

def Event.holderOf? (id : Uuid) : Event → Option String
  | bound job engine => if job = id then some engine else none
  | _ => none

theorem Event.holderOf?_eq_none_iff {event : Event} {id : Uuid} :
    event.holderOf? id = none ↔ event.binds id = false := by
  cases event <;> simp [holderOf?, binds]

namespace Log

def lastHolder? (log : Log) (id : Uuid) : Option String :=
  (log.filterMap fun entry => entry.2.holderOf? id).getLast?

theorem lastHolder?_step (log : Log) (now : Instant) (event : Event) (id : Uuid) :
    lastHolder? (log ++ [(now, event)]) id = (event.holderOf? id).or (log.lastHolder? id) :=
  getLast?_told_step (Event.holderOf? id) log now event

theorem lastHolder?_eq_none_iff {log : Log} {id : Uuid} :
    log.lastHolder? id = none ↔ ∀ entry ∈ log, entry.2.binds id = false := by
  simp only [lastHolder?, List.getLast?_eq_none_iff, List.filterMap_eq_nil_iff,
    Event.holderOf?_eq_none_iff]

end Log

/-- The record of a job names the engine where it was last, and no other one holds it. -/
structure Job.WasAt (last : Option String) (job : Job) : Prop where
  recorded : job.lastEngine = last
  current : ∀ name, job.assignedEngine = some name → last = some name

/-- A job that leaves its engine was last there. -/
theorem Job.WasAt.freed {last : Option String} {job : Job} (wasAt : job.WasAt last)
    (change : Job → Job) (same : (change job).lastEngine = job.lastEngine)
    (leaves : (change job).assignedEngine = none) : (change job).WasAt last := by
  refine ⟨same.trans wasAt.recorded, fun name assigned => ?_⟩
  rw [leaves] at assigned
  cases assigned

theorem Job.wasAt_assign (engine : String) (now : Instant) (job : Job) :
    (job.assign engine now).WasAt (some engine) :=
  ⟨rfl, fun _ assigned => assigned⟩

namespace Board

/-- The log tells where every job on file was last, and all that it tells of is on file. -/
structure Traced (log : Log) (board : Board) : Prop where
  jobs : ∀ id job, board.jobs.get? id = some job → job.WasAt (log.lastHolder? id)
  known : ∀ id name, log.lastHolder? id = some name →
    id ∈ board.jobs.keys ∧ name ∈ board.engines.keys

theorem traced_empty : Traced [] empty where
  jobs := fun _ _ found => nomatch found
  known := fun _ _ told => nomatch told

variable {log : Log} {board next : Board} {now : Instant} {event : Event}

/-- An event that gives no job away leaves the traces as they are. -/
theorem Traced.quiet (traced : Traced log board) (silent : ∀ id, event.holderOf? id = none)
    (grown : board.jobs.keys <+: next.jobs.keys ∧ board.engines.keys <+: next.engines.keys)
    (jobs : ∀ id job, next.jobs.get? id = some job → job.WasAt (log.lastHolder? id)) :
    Traced (log ++ [(now, event)]) next := by
  have told (id : Uuid) : Log.lastHolder? (log ++ [(now, event)]) id = log.lastHolder? id := by
    rw [Log.lastHolder?_step, silent, Option.none_or]
  refine ⟨fun id job found => told id ▸ jobs id job found, fun id name given => ?_⟩
  rw [told] at given
  obtain ⟨filed, enrolled⟩ := traced.known id name given
  exact ⟨grown.1.subset filed, grown.2.subset enrolled⟩

/-- Every step leaves its trace, as long as a job that is brought in is new. -/
theorem Change.traced (change : Change now board event next) (traced : Traced log board)
    (new : ∀ id, event = .submitted id → board.jobs.get? id = none) :
    Traced (log ++ [(now, event)]) next := by
  have grown := change.keys_prefix
  cases change with
  | @submitted id request accepted =>
    refine traced.quiet (fun _ => rfl) grown (Ledger.forall_put traced.jobs ?_)
    -- the log tells of no assignment of a job that is new
    have absent := Ledger.get?_eq_none_iff.1 (new id rfl)
    have none : log.lastHolder? id = none :=
      Option.eq_none_iff_forall_ne_some.2 fun name given => absent (traced.known id name given).1
    rw [none]
    exact ⟨rfl, fun _ assigned => nomatch assigned⟩
  | registered accepted unknown => exact traced.quiet (fun _ => rfl) grown traced.jobs
  | refreshed accepted known => exact traced.quiet (fun _ => rfl) grown traced.jobs
  | measured amount known => exact traced.quiet (fun _ => rfl) grown traced.jobs
  | @bound rule job engine first chosen found waiting known idle =>
    have told (id : Uuid) :
        Log.lastHolder? (log ++ [(now, .bound job.id engine.id)]) id =
          if job.id = id then some engine.id else log.lastHolder? id := by
      rw [Log.lastHolder?_step, Event.holderOf?]
      split <;> simp
    constructor
    · intro id record lookup
      rw [told]
      rcases Ledger.get?_update_eq_some.1 lookup with ⟨old, own, _, changed⟩ | ⟨apart, there⟩
      · subst own changed
        rw [if_pos rfl]
        exact old.wasAt_assign engine.id now
      · rw [if_neg (Ne.symm apart)]
        exact traced.jobs id record there
    · intro id name given
      rw [told] at given
      split at given
      · rename_i own
        cases given
        exact ⟨grown.1.subset (own ▸ Ledger.mem_keys_of_get? found),
          grown.2.subset (Ledger.mem_keys_of_get? known)⟩
      · obtain ⟨filed, enrolled⟩ := traced.known id name given
        exact ⟨grown.1.subset filed, grown.2.subset enrolled⟩
  | @completed id job outputUrl found held written =>
    refine traced.quiet (fun _ => rfl) grown (Ledger.forall_update traced.jobs fun job there => ?_)
    exact (traced.jobs id job there).freed (Job.complete outputUrl now) rfl rfl
  | @failed id job retries reason found held counted =>
    refine traced.quiet (fun _ => rfl) grown (Ledger.forall_update traced.jobs fun old there => ?_)
    cases found.symm.trans there
    obtain ⟨status, message, same⟩ := job.failed_record retries reason now
    exact (traced.jobs id job found).freed (fun job => (job.failed retries reason now).2)
      (by rw [same]) (by rw [same])

theorem History.traced (history : History empty log board) (fresh : Fresh empty log) :
    Traced log board := by
  refine history.induction Traced fresh traced_empty ?_
  intro log board now event next _ change new earlier
  exact change.traced earlier new

end Board

end JobDispatch
