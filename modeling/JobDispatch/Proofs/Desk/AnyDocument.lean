import JobDispatch.Proofs.Board.Holding
import JobDispatch.Proofs.Desk.Session
set_option autoImplicit false

/- What holds in every state of a run, whatever document it began with: engines may be idle with a
job on record, be on record with jobs that are not assigned to them, or share several jobs. -/
namespace JobDispatch

open Time

namespace Operation

/-- If what an operation adds to the log is a report, then reports are all that it adds. -/
theorem isReport_of_events {operation : Operation} {answer : Answer}
    (report : ∃ event ∈ operation.events answer, event.isReport = true) :
    ∀ event ∈ operation.events answer, event.isReport = true := by
  obtain ⟨event, member, report⟩ := report
  cases operation with
  | complete job outputUrl => cases answer <;> simp [events, Event.isReport]
  | fail job reason => cases answer <;> simp [events, Event.isReport]
  | reclaim =>
    cases answer with
    | reclaimed outcomes =>
      intro other inside
      obtain ⟨outcome, _, same⟩ := List.mem_map.1 inside
      subst same
      rfl
    | _ => cases member
  | assign =>
    cases answer with
    | attempted outcome => cases outcome <;> simp_all [events, Event.isReport]
    | _ => cases member
  | _ => cases answer <;> simp_all [events, Event.isReport]

end Operation

namespace Session

/-- If what a turn adds to the log is a report, then reports are all that it adds. -/
theorem isReport_of_turn {session : Session} {turn : Turn} {added : Log}
    (log : (session.turn turn).log = session.log ++ added)
    (report : ∃ entry ∈ added, entry.2.isReport = true) :
    ∀ entry ∈ added, entry.2.isReport = true := by
  cases turn with
  | ask operation moment =>
    have same : Log.at moment.now (operation.eventsOf (operation.perform moment session.desk).1) =
        added := List.append_cancel_left log
    have events : (∃ event ∈ operation.eventsOf (operation.perform moment session.desk).1,
        event.isReport = true) →
        ∀ event ∈ operation.eventsOf (operation.perform moment session.desk).1,
          event.isReport = true := by
      cases (operation.perform moment session.desk).1 with
      | error fault => simp [Operation.eventsOf]
      | ok answer => exact Operation.isReport_of_events
    rw [← same] at report ⊢
    simpa [Log.at] using events (by simpa [Log.at] using report)
  | assignAll moment =>
    have same := List.append_cancel_left log
    subst same
    obtain ⟨entry, member, report⟩ := report
    obtain ⟨event, bound, same⟩ := List.mem_map.1 member
    obtain ⟨pair, _, binding⟩ := List.mem_map.1 bound
    subst same binding
    cases report
  | reopen settings =>
    have none : added = [] := List.self_eq_append_right.1 log
    subst none
    simp

/-- In every state of a run, whatever document it began with, every job obeys the rules that tie its
fields to its state, every job and every engine is filed under its own id, and no id occurs twice.
-/
theorem records_in_order {settings : Settings} {disk : Disk} {ids : IdSupply} {desk : Desk}
    (opened : Desk.start settings disk ids = .ok desk) (turns : List Turn) :
    let board := ((opening desk).run turns).desk.board
    (∀ job ∈ board.jobs.records, job.check = .ok ()
        ∧ (job.assignedEngine.isSome = true ↔ job.status = .assigned)
        ∧ (job.assignedAt.isSome = true ↔ job.status = .assigned)
        ∧ (job.outputUrl.isSome = true ↔ job.status = .completed)
        ∧ (job.status ≠ .failedPermanently → job.retries ≤ job.maxRetries))
      ∧ board.jobs.keys = board.jobs.records.map Job.id
      ∧ (board.jobs.records.map Job.id).Nodup
      ∧ board.engines.keys = board.engines.records.map Engine.id
      ∧ (board.engines.records.map Engine.id).Nodup := by
  intro board
  have storable : board.Storable := (kept_run (Desk.kept_of_start opened) turns).1.storable
  have jobKeys := Ledger.keys_eq_map_records fun key job found => (storable.jobs key job found).1
  have engineKeys := Ledger.keys_eq_map_records fun key engine found =>
    (storable.engines key engine found).1
  refine ⟨?_, jobKeys, ?_, engineKeys, ?_⟩
  · intro job member
    obtain ⟨key, found⟩ := Ledger.mem_records_iff.1 member
    have ordered := (storable.jobs key job found).2.1
    refine ⟨?_, (Job.brokenRule?_eq_none_iff job).1 ordered⟩
    rw [Job.check, ordered]
  · rw [← jobKeys]
    exact board.jobs.nodup
  · rw [← engineKeys]
    exact board.engines.nodup

end Session

/-- A board on which little agrees: an idle engine has a job on record, two jobs are assigned to it,
and a third one is assigned to an engine that is not on file. A fourth job waits. -/
def Board.tangled : Board :=
  let time := Moment.first.now
  let job (number : Nat) (engine : Option String) : Job :=
    { id := Uuid.ofNat number
      sourceUrl := "in"
      targetCodec := "out"
      jobSize := Binary64.zero false
      status := if engine.isSome then .assigned else .pending
      assignedEngine := engine
      lastEngine := engine
      outputUrl := none
      retries := 0
      maxRetries := 1
      errorMessage := none
      createdAt := time
      updatedAt := time
      assignedAt := engine.map fun _ => time }
  { jobs := ⟨[(Uuid.ofNat 11, job 11 (some "engine")), (Uuid.ofNat 12, job 12 (some "engine")),
      (Uuid.ofNat 13, job 13 (some "ghost")), (Uuid.ofNat 14, job 14 none)], by decide⟩
    engines := ⟨[("engine", ⟨"engine", .idle, Binary64.zero false, time,
      some (Binary64.zero false), some (Uuid.ofNat 11)⟩)], by decide⟩ }

def Desk.tangled : Desk := .onFile .standard .tangled

theorem Desk.start_tangled : start .standard tangled.disk tangled.ids = .ok tangled :=
  start_onFile .standard (by decide +kernel)

namespace Session

/-- A run in which the waiting job is given away and the job that the engine had on record fails. -/
def staleFailed : List Turn := [.ask .assign .first, .ask (.fail (Uuid.ofNat 11) "broken") .first]

theorem records_in_order_staleFailed :
    Desk.start .standard Desk.tangled.disk Desk.tangled.ids = .ok .tangled
      ∧ ∃ job ∈ ((opening .tangled).run staleFailed).desk.board.jobs.records,
        job.id = Uuid.ofNat 11 ∧ job.check = .ok () ∧ job.assignedEngine.isSome = false
          ∧ job.retries ≤ job.maxRetries := by
  have opened := Desk.start_tangled
  have requeued : ∃ job ∈ ((opening .tangled).run staleFailed).desk.board.jobs.records,
      job.id = Uuid.ofNat 11 ∧ job.status = .pending := by
    decide +kernel
  obtain ⟨job, member, own, waiting⟩ := requeued
  obtain ⟨checked, engine, _, _, bound⟩ := (records_in_order opened staleFailed).1 job member
  refine ⟨opened, job, member, own, checked, ?_, ?_⟩
  · rw [waiting] at engine
    simpa using engine
  · apply bound
    rw [waiting]
    decide

/-- In every state of a run, whatever document it began with, a job that was given away in the run
and is assigned still is on record with the engine that it was given to, and that engine is busy and
bound to it. Whatever comes next leaves it so, until a report on that very job is accepted: then the
engine is idle and unbound. Two such jobs never share an engine. -/
theorem given_jobs_held {settings : Settings} {disk : Disk} {ids : IdSupply} {desk : Desk}
    (opened : Desk.start settings disk ids = .ok desk) (turns : List Turn) :
    let final := (opening desk).run turns
    (∀ id job, Board.Underway final.log final.desk.board id job →
      ∃ time name, (time, Event.bound id name) ∈ final.log
        ∧ job.assignedAt = some time ∧ job.assignedEngine = some name
        ∧ final.desk.board.engines.Holds name id
        ∧ ∀ next added, (final.turn next).log = final.log ++ added →
          ((∀ entry ∈ added, entry.2.reportsOn id = false) →
            (final.turn next).desk.board.engines.Holds name id)
          ∧ ((∃ entry ∈ added, entry.2.reportsOn id = true) →
            (final.turn next).desk.board.engines.IsFree name))
      ∧ ∀ id other job otherJob, Board.Underway final.log final.desk.board id job →
        Board.Underway final.log final.desk.board other otherJob →
        job.assignedEngine = otherJob.assignedEngine → id = other := by
  intro final
  obtain ⟨kept, history⟩ := kept_run (Desk.kept_of_start opened) turns
  have secured := history.secured
  constructor
  · intro id job underway
    obtain ⟨time, name, bound, stamped, assigned, holds⟩ := secured id job underway
    refine ⟨time, name, bound, stamped, assigned, holds, ?_⟩
    intro next added log
    obtain ⟨_, events, grown, later⟩ := kept_turn kept next
    have same : events = added := List.append_cancel_left (grown.symm.trans log)
    subst same
    constructor
    · intro others
      exact later.holds holds others
    · intro reported
      obtain ⟨entry, member, own⟩ := reported
      have reports := isReport_of_turn log ⟨entry, member, Event.isReport_of_reportsOn own⟩
      exact later.isFree holds underway.found assigned reports ⟨entry, member, own⟩
  · intro id other job otherJob underway otherUnderway same
    obtain ⟨_, name, _, _, assigned, holds⟩ := secured id job underway
    obtain ⟨_, otherName, _, _, otherAssigned, otherHolds⟩ := secured other otherJob otherUnderway
    have engine : name = otherName := Option.some.inj (by rw [← assigned, same, otherAssigned])
    subst engine
    exact holds.unique otherHolds

/-- A run in which the engine of that board takes the waiting job, while the job that it has on
record is reported as done, and the engine itself as idle. -/
def retaken : List Turn :=
  [.ask .assign .first, .ask (.complete (Uuid.ofNat 11) "done") .first,
    .ask (.heartbeat ⟨"engine", .idle, Binary64.zero false⟩) .first]

theorem given_jobs_held_retaken :
    Desk.start .standard Desk.tangled.disk Desk.tangled.ids = .ok .tangled
      ∧ ∃ job, Board.Underway ((opening .tangled).run retaken).log
          ((opening .tangled).run retaken).desk.board (Uuid.ofNat 14) job
        ∧ ((opening .tangled).run retaken).desk.board.engines.Holds "engine" (Uuid.ofNat 14)
        ∧ (((opening .tangled).run retaken).turn
          (.ask (.fail (Uuid.ofNat 12) "broken") .first)).desk.board.engines.Holds "engine"
            (Uuid.ofNat 14)
        ∧ (((opening .tangled).run retaken).turn
          (.ask (.complete (Uuid.ofNat 14) "done") .first)).desk.board.engines.IsFree "engine" := by
  have opened := Desk.start_tangled
  have assigned : (((opening .tangled).run retaken).desk.board.jobs.get? (Uuid.ofNat 14)).map
      (fun job => (job.status, job.assignedEngine)) = some (.assigned, some "engine") := by
    decide +kernel
  obtain ⟨job, found, fields⟩ := Option.map_eq_some_iff.1 assigned
  obtain ⟨held, engine⟩ := Prod.mk.inj fields
  have underway : Board.Underway ((opening .tangled).run retaken).log
      ((opening .tangled).run retaken).desk.board (Uuid.ofNat 14) job :=
    ⟨found, held, by decide +kernel⟩
  obtain ⟨_, name, _, _, onRecord, holds, next⟩ :=
    (given_jobs_held opened retaken).1 _ job underway
  cases onRecord.symm.trans engine
  refine ⟨opened, job, underway, holds, ?_, ?_⟩
  · refine (next _ [(Moment.first.now, .failed (Uuid.ofNat 12) (.requeued 1 1))] ?_).1 ?_
    · decide +kernel
    · decide
  · refine (next _ [(Moment.first.now, .completed (Uuid.ofNat 14))] ?_).2 ?_
    · decide +kernel
    · exact ⟨_, List.mem_singleton_self _, by decide⟩

end Session

end JobDispatch
