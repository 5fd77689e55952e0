import JobDispatch.Proofs.Board.Stamps
import JobDispatch.Proofs.Desk.Growth
set_option autoImplicit false

namespace JobDispatch

open Time

/-- The time at which something is asked. To open a desk again reads no clock. -/
def Turn.clock? : Turn → Option Instant
  | ask _ moment => some moment.now
  | assignAll moment => some moment.now
  | reopen _ => none

/-- The times that the clock shows in the course of some turns. -/
def Turn.clocks (turns : List Turn) : List Instant := turns.filterMap Turn.clock?

/-- A job that stays on file is stamped anew only with another state. -/
def Board.Restamped (before after : Board) : Prop :=
  ∀ id job, before.jobs.get? id = some job → ∃ later, after.jobs.get? id = some later
    ∧ (later.updatedAt = job.updatedAt ∨ later.status ≠ job.status)

theorem Board.Moved.restamped {before after : Board} (moved : before.Moved after) :
    before.Restamped after := by
  intro id job found
  obtain ⟨later, still, step⟩ := moved id job found
  exact ⟨later, still, step.restamped⟩

namespace Session

/-- What a turn adds to the log is from its own time. -/
theorem clock_of_turn {session : Session} (kept : session.desk.Kept) (turn : Turn) :
    ∃ added, (session.turn turn).log = session.log ++ added
      ∧ ∀ entry ∈ added, turn.clock? = some entry.1 := by
  have stamped (now : Instant) (events : List Event) :
      ∀ entry ∈ Log.at now events, some now = some entry.1 := by
    intro entry member
    obtain ⟨event, _, same⟩ := List.mem_map.1 member
    rw [← same]
  cases turn with
  | ask operation moment => exact ⟨_, rfl, stamped moment.now _⟩
  | assignAll moment => exact ⟨_, rfl, stamped moment.now _⟩
  | reopen settings =>
    simp only [Session.turn, kept.restart settings]
    refine ⟨[], (List.append_nil _).symm, ?_⟩
    intro entry member
    cases member

/-- Every entry of the log of a run is from a time that the clock showed. -/
theorem mem_clocks_run {desk : Desk} (kept : desk.Kept) (turns : List Turn) :
    ∀ entry ∈ ((opening desk).run turns).log, entry.1 ∈ Turn.clocks turns := by
  induction turns using List.reverseRecOn with
  | nil =>
    intro entry member
    cases member
  | append_singleton turns turn ih =>
    obtain ⟨added, log, clock⟩ := clock_of_turn (kept_run kept turns).1 turn
    intro entry member
    rw [run_concat, log, List.mem_append] at member
    rw [Turn.clocks, List.filterMap_append, List.mem_append]
    rcases member with old | new
    · exact .inl (ih entry old)
    · exact .inr (List.mem_filterMap.2 ⟨turn, List.mem_singleton_self _, clock entry new⟩)

/-- Where the clock does not go back, no entry of the log is from before an earlier one. -/
theorem ordered_run {desk : Desk} (kept : desk.Kept) (turns : List Turn)
    (forward : (Turn.clocks turns).Pairwise (· ≤ ·)) :
    ((opening desk).run turns).log.Ordered := by
  induction turns using List.reverseRecOn with
  | nil => exact List.Pairwise.nil
  | append_singleton turns turn ih =>
    rw [Turn.clocks, List.filterMap_append, List.pairwise_append] at forward
    obtain ⟨earlier, _, behind⟩ := forward
    obtain ⟨added, log, clock⟩ := clock_of_turn (kept_run kept turns).1 turn
    have shown (entry : Instant × Event) (member : entry ∈ added) :
        entry.1 ∈ [turn].filterMap Turn.clock? :=
      List.mem_filterMap.2 ⟨turn, List.mem_singleton_self _, clock entry member⟩
    rw [run_concat, log, Log.Ordered, List.pairwise_append]
    refine ⟨ih earlier, ?_, ?_⟩
    · refine List.pairwise_of_forall_mem_list fun first member second other => ?_
      rw [Option.some.inj ((clock first member).symm.trans (clock second other))]
      exact Instant.le_refl _
    · intro first member second other
      exact behind first.1 (mem_clocks_run kept turns first member) second.1 (shown second other)

/-- In every state of a run that begins without a document and whose clock does not go back, a job
was created at the time of its submission, no later than it was stamped last, and that is no later
than now; it was stamped last with the last step it took. An assigned job is stamped with the time
of its last assignment, and so is the time since which it is assigned. The jobs stand in the order
of their creation. From each board that is saved to the next one a job is stamped anew only with
another state. The last heartbeat of an engine is that of its last report that was accepted, and it
never goes back. -/
theorem stamps_agree {settings : Settings} {disk : Disk} {ids : IdSupply} {desk : Desk}
    (opened : Desk.start settings disk ids = .ok desk) (vacant : disk.load = .ok none)
    (turns later : List Turn) (now : Instant)
    (distinct : (ids.between ids.issued
      ((opening desk).run (turns ++ later)).desk.ids.issued).Nodup)
    (forward : (Turn.clocks (turns ++ later)).Pairwise (· ≤ ·))
    (reached : ∀ time ∈ Turn.clocks turns, time ≤ now) :
    let final := (opening desk).run turns
    let last := (opening desk).run (turns ++ later)
    (∀ job ∈ final.desk.jobs,
        job.createdAt ≤ job.updatedAt ∧ job.updatedAt ≤ now
          ∧ final.log.lastTime? (Event.submits job.id) = some job.createdAt
          ∧ final.log.lastTime? (Event.concerns job.id) = some job.updatedAt
          ∧ (job.status = .assigned → job.assignedAt = some job.updatedAt
            ∧ final.log.lastTime? (Event.binds job.id) = some job.updatedAt))
      ∧ (final.desk.jobs.map Job.createdAt).Pairwise (· ≤ ·)
      ∧ (desk.board :: (opening desk).trail turns).IsChain Board.Restamped
      ∧ (desk.board :: (opening desk).trail turns).getLast? = some final.desk.board
      ∧ ∀ engine ∈ final.desk.engines,
        final.log.lastTime? (Event.isReportOf engine.id) = some engine.lastHeartbeat
          ∧ ∃ after ∈ last.desk.engines, after.id = engine.id
            ∧ engine.lastHeartbeat ≤ after.lastHeartbeat := by
  intro final last
  have kept := Desk.kept_of_start opened
  obtain ⟨whole, freshWhole⟩ := history_of_vacant opened vacant (turns ++ later) distinct
  have empty : desk.board = .empty := by
    obtain ⟨loaded, read, same⟩ := Desk.start_eq_ok.1 opened
    cases vacant.symm.trans read
    rw [same]
    rfl
  obtain ⟨keptFinal, history⟩ := kept_run kept turns
  obtain ⟨keptLast, added, log, rest⟩ := kept_later keptFinal later
  rw [← run_append] at keptLast log rest
  rw [empty] at history
  have fresh : Board.Fresh .empty final.log := (history.fresh_split (by rwa [← log])).1
  have stamped := history.stamped fresh
  have orderedWhole : last.log.Ordered := ordered_run kept (turns ++ later) forward
  have ordered : final.log.Ordered := by
    rw [log, Log.Ordered, List.pairwise_append] at orderedWhole
    exact orderedWhole.1
  have trail := trail_run kept turns (empty ▸ fresh)
  refine ⟨fun job member => ?_, ?_, trail.chain.imp fun _ _ moved => moved.restamped, trail.last,
    fun engine member => ?_⟩
  · obtain ⟨key, found⟩ := Ledger.mem_records_iff.1 member
    have own : key = job.id := keptFinal.storable.keyed.jobs key job found
    subst own
    obtain ⟨created, updated, assigned⟩ := stamped.jobs _ job found
    obtain ⟨_, brought, submits⟩ := Log.mem_of_lastTime? created
    obtain ⟨_, stepped, _⟩ := Log.mem_of_lastTime? updated
    exact ⟨ordered.le_lastTime? brought (Event.concerns_of_submits submits) updated,
      reached _ (mem_clocks_run kept turns _ stepped), created, updated, assigned⟩
  · show (final.desk.board.jobs.records.map Job.createdAt).Pairwise (· ≤ ·)
    rw [stamped.order]
    exact ordered.submissionTimes
  · obtain ⟨key, known⟩ := Ledger.mem_records_iff.1 member
    have own : key = engine.id := keptFinal.storable.keyed.engines key engine known
    subst own
    have heard := stamped.engines _ engine known
    obtain ⟨_, reported, told⟩ := Log.mem_of_lastTime? heard
    have still : engine.id ∈ last.desk.board.engines.keys :=
      rest.keys_prefix.2.subset (Ledger.mem_keys_of_get? known)
    obtain ⟨after, there⟩ : ∃ after, last.desk.board.engines.get? engine.id = some after := by
      rw [← Option.ne_none_iff_exists']
      exact fun absent => Ledger.get?_eq_none_iff.1 absent still
    have heardLast := (whole.stamped freshWhole).engines _ after there
    refine ⟨heard, after, Ledger.mem_records_iff.2 ⟨_, there⟩,
      (keptLast.storable.keyed.engines _ after there).symm, ?_⟩
    exact orderedWhole.le_lastTime? (log ▸ List.mem_append_left added reported) told heardLast

/-- A run in which a job is submitted, an engine reports and takes the job, and a failure of the
job cannot be saved; each second something happens. -/
def everySecond : List Turn :=
  [.ask (.submit ⟨"in", "out", Binary64.zero false, 1⟩) .first,
    .ask (.heartbeat ⟨"engine", .idle, Binary64.zero false⟩) (.calm ⟨1, 0, by decide, by decide⟩),
    .ask (.benchmark "engine" (Binary64.zero false)) (.calm ⟨1, 0, by decide, by decide⟩),
    .ask .assign (.calm ⟨2, 0, by decide, by decide⟩),
    .ask (.fail (Uuid.ofNat 0) "broken")
      ⟨⟨3, 0, by decide, by decide⟩, fun _ => { rename := true }⟩]

/-- After that the engine reports once more. -/
def oneMoreReport : List Turn :=
  [.ask (.heartbeat ⟨"engine", .busy, Binary64.zero false⟩) (.calm ⟨4, 0, by decide, by decide⟩)]

/-- The failure that could not be saved has stamped nothing. -/
theorem stamps_agree_everySecond :
    let final := (opening (Desk.initial .standard)).run everySecond
    let last := (opening (Desk.initial .standard)).run (everySecond ++ oneMoreReport)
    let now : Instant := ⟨3, 0, by decide, by decide⟩
    Desk.start .standard (Desk.initial .standard).disk (Desk.initial .standard).ids =
        .ok (Desk.initial .standard)
      ∧ (Desk.initial .standard).disk.load = .ok none
      ∧ ((Desk.initial .standard).ids.between 0 last.desk.ids.issued).Nodup
      ∧ (Turn.clocks (everySecond ++ oneMoreReport)).Pairwise (· ≤ ·)
      ∧ (∀ time ∈ Turn.clocks everySecond, time ≤ now)
      ∧ (∃ job ∈ final.desk.jobs, job.status = .assigned ∧ job.createdAt ≤ job.updatedAt
        ∧ job.assignedAt = some job.updatedAt
        ∧ final.log.lastTime? (Event.binds job.id) = some job.updatedAt
        ∧ job.updatedAt.seconds = 2)
      ∧ ∃ engine ∈ final.desk.engines, engine.lastHeartbeat.seconds = 1
        ∧ ∃ after ∈ last.desk.engines, engine.lastHeartbeat ≤ after.lastHeartbeat := by
  intro final last now
  have opened := Desk.start_initial .standard
  have vacant : (Desk.initial .standard).disk.load = .ok none := rfl
  have distinct : ((Desk.initial .standard).ids.between 0 last.desk.ids.issued).Nodup := by
    decide +kernel
  have forward : (Turn.clocks (everySecond ++ oneMoreReport)).Pairwise (· ≤ ·) := by
    decide +kernel
  have reached : ∀ time ∈ Turn.clocks everySecond, time ≤ now := by
    decide +kernel
  obtain ⟨jobs, -, -, -, engines⟩ :=
    stamps_agree opened vacant everySecond oneMoreReport now distinct forward reached
  have held : ∃ job ∈ final.desk.jobs, job.status = .assigned ∧ job.updatedAt.seconds = 2 := by
    decide +kernel
  have heard : ∃ engine ∈ final.desk.engines, engine.lastHeartbeat.seconds = 1 := by
    decide +kernel
  obtain ⟨job, member, assigned, stamped⟩ := held
  obtain ⟨engine, known, reported⟩ := heard
  obtain ⟨order, -, -, -, bound⟩ := jobs job member
  obtain ⟨since, given⟩ := bound assigned
  obtain ⟨-, after, still, -, later⟩ := engines engine known
  exact ⟨opened, vacant, distinct, forward, reached,
    ⟨job, member, assigned, order, since, given, stamped⟩, engine, known, reported, after, still,
    later⟩

end Session

end JobDispatch
