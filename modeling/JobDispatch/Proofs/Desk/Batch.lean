import JobDispatch.Proofs.Desk.AnyDocument
import JobDispatch.Proofs.Desk.Saving
import JobDispatch.Proofs.Time.Instant
set_option autoImplicit false

namespace JobDispatch

open Time

/-- The job timeouts that can end are those of less than 2 ^ 63 milliseconds. -/
theorem Settings.jobTimeout_eq_some_iff {settings : Settings} {timeout : Nat} :
    settings.jobTimeout = some timeout ↔ ∃ ms, settings.jobTimeoutMs = some ms
      ∧ ms.toNat < 2 ^ 63 ∧ nanosOfMs ms = timeout := by
  have ends (ms : UInt64) : nanosOfMs ms ≤ longestSpan ↔ ms.toNat < 2 ^ 63 := by
    simp only [nanosOfMs, longestSpan]
    omega
  simp only [jobTimeout, Option.filter_eq_some_iff, Option.map_eq_some_iff, decide_eq_true_eq]
  constructor
  · rintro ⟨⟨ms, set, same⟩, short⟩
    subst same
    exact ⟨ms, set, (ends ms).1 short, rfl⟩
  · rintro ⟨ms, set, short, same⟩
    subst same
    exact ⟨⟨ms, set, rfl⟩, (ends ms).2 short⟩

/-- A job timeout that reaches back into the calendar is one that can end. -/
theorem Settings.jobTimeout_of_minus? {settings : Settings} {ms : UInt64} {now cutoff : Instant}
    (on : settings.jobTimeoutMs = some ms) (back : now.minus? (nanosOfMs ms) = some cutoff) :
    settings.jobTimeout = some (nanosOfMs ms) := by
  obtain ⟨_, last⟩ := now.inCalendar
  have within := now.inSecond
  have reached : ¬ now.totalNanos - nanosOfMs ms < firstSecond * 1000000000 := fun early => by
    rw [Instant.minus?_eq_none_iff.2 early] at back
    cases back
  refine jobTimeout_eq_some_iff.2 ⟨ms, on, ?_, rfl⟩
  simp only [Instant.totalNanos, firstSecond, lastSecond, nanosOfMs] at *
  omega

namespace Board

variable {board staged : Board} {now cutoff : Instant} {reason : String}
  {outcomes : List (Uuid × FailureOutcome)}

/-- Once the jobs that were assigned before a time have failed, there are none. -/
theorem Storable.assignedBefore_failAll (storable : board.Storable)
    (failed : board.failAll reason now (board.jobs.assignedBefore cutoff) =
      .ok (outcomes, staged)) : staged.jobs.assignedBefore cutoff = [] := by
  have sound : ¬ board.WornSince cutoff := by
    intro worn
    rw [storable.failAll_assignedBefore_of_worn reason now worn] at failed
    cases failed
  obtain ⟨_, _, same, left⟩ := storable.failAll_assignedBefore reason now sound
  cases failed.symm.trans same
  rw [List.eq_nil_iff_forall_not_mem]
  intro id member
  have stagedStorable := (history_of_failAll failed).storable storable
  obtain ⟨job, time, found, held, stamped, early⟩ := stagedStorable.mem_assignedBefore.1 member
  rw [left id job time found held stamped] at early
  cases early

end Board

namespace Session

/-- Reports that jobs failed for the same reason at the same time, one after another. -/
def failures (reason : String) (now : Instant) (mishaps : Uuid → Nat → Mishaps)
    (jobs : List Uuid) : List Turn :=
  jobs.map fun job => .ask (.fail job reason) ⟨now, mishaps job⟩

/-- Where saves go through, such reports come to what failing the jobs together comes to. -/
theorem run_failures (session : Session) {reason : String} {now : Instant}
    {mishaps : Uuid → Nat → Mishaps} {jobs : List Uuid} {staged : Board}
    {outcomes : List (Uuid × FailureOutcome)}
    (saves : ∀ job ∈ jobs, session.desk.CanSave (mishaps job 0))
    (failed : session.desk.board.failAll reason now jobs = .ok (outcomes, staged)) :
    (session.run (failures reason now mishaps jobs)).desk.board = staged
      ∧ (session.run (failures reason now mishaps jobs)).replies =
        session.replies ++ outcomes.map fun (_, outcome) => .answered (.ok (.failed outcome)) := by
  induction jobs generalizing session outcomes with
  | nil =>
    cases failed
    exact ⟨rfl, (List.append_nil _).symm⟩
  | cons job jobs ih =>
    obtain ⟨⟨outcome, middle⟩, one, rest⟩ := bind_eq_ok.1 failed
    obtain ⟨⟨later, last⟩, others, equal⟩ := bind_eq_ok.1 rest
    cases equal
    let moment : Moment := ⟨now, mishaps job⟩
    have possible : session.desk.CanSave (moment.mishaps 0) := saves job List.mem_cons_self
    have attempted : (Operation.fail job reason).attempt session.desk.settings
        (session.desk.ids.nth session.desk.ids.issued) now session.desk.board =
          (.ok (.failed outcome), middle) := by
      simp only [Operation.attempt, Operation.transition, one]
      rfl
    obtain ⟨next, performed, reached⟩ := Operation.perform_of_attempt possible attempted
    have turned : session.turn (.ask (.fail job reason) moment) =
        ⟨next, session.replies ++ [.answered (.ok (.failed outcome))],
          session.log ++ Log.at now [.failed job outcome]⟩ := by
      simp only [turn, performed]
      rfl
    have still : ∀ other ∈ jobs, next.CanSave (mishaps other 0) := by
      intro other member
      have kept := (saves other (List.mem_cons_of_mem _ member)).perform (.fail job reason) moment
      rwa [performed] at kept
    obtain ⟨board, replies⟩ := ih
      ⟨next, session.replies ++ [.answered (.ok (.failed outcome))],
        session.log ++ Log.at now [.failed job outcome]⟩ still (by rwa [reached])
    rw [failures, List.map_cons, run, List.foldl_cons, turned]
    refine ⟨board, replies.trans ?_⟩
    rw [List.append_assoc]
    rfl

end Session

namespace Desk

variable {desk : Desk} {moment : Moment} {timeout : Nat} {cutoff : Instant}

/-- Where no job has timed out there is nothing to reclaim. -/
theorem reclaim_eq_nil (on : desk.settings.jobTimeout = some timeout)
    (back : moment.now.minus? timeout = some cutoff)
    (none : desk.board.jobs.assignedBefore cutoff = []) : desk.reclaim moment = (.ok [], desk) := by
  simp only [reclaim, on, back, failTimedOut, none, List.isEmpty_nil, if_true]

variable {outcomes : List (Uuid × FailureOutcome)} {staged : Board}

/-- Where some have, reclaiming saves the board on which they have failed. -/
theorem reclaim_eq_commit (on : desk.settings.jobTimeout = some timeout)
    (back : moment.now.minus? timeout = some cutoff)
    (some : desk.board.jobs.assignedBefore cutoff ≠ [])
    (failed : desk.board.failAll timeoutReason moment.now (desk.board.jobs.assignedBefore cutoff) =
      .ok (outcomes, staged)) :
    desk.reclaim moment = match desk.commit staged (moment.mishaps 0) with
      | (.error refusal, after) => (.error (.refused refusal), after)
      | (.ok (), after) => (.ok outcomes, after.signal) := by
  have busy : (desk.board.jobs.assignedBefore cutoff).isEmpty = false := by simpa using some
  simp only [reclaim, on, back, failTimedOut, busy, mutate, failed]
  cases desk.commit staged (moment.mishaps 0) with
  | mk answer after => cases answer <;> rfl

end Desk

namespace Session

/-- In every state of a run, whatever document it began with, reclaiming with a timeout that reaches
back into the calendar and that meets no worn job is failing the jobs, in their order, that were
assigned before the cutoff:
it answers what reports answer that they failed, one after another and each saved on its own, and
leads to the same board. If its one save fails, then nothing is changed. When it has gone through
there is nothing left to reclaim at that time. -/
theorem reclaim_eq_failures {settings : Settings} {disk : Disk} {ids : IdSupply} {desk : Desk}
    (opened : Desk.start settings disk ids = .ok desk) (turns : List Turn) {moment : Moment}
    {ms : UInt64} {cutoff : Instant}
    (on : ((opening desk).run turns).desk.settings.jobTimeoutMs = some ms)
    (back : moment.now.minus? (nanosOfMs ms) = some cutoff)
    (sound : ¬ ((opening desk).run turns).desk.board.WornSince cutoff) :
    let final := ((opening desk).run turns).desk
    let expired := (final.jobs.filter fun job => decide (job.status = .assigned)
      && job.assignedAt.any fun time => time.before cutoff).map Job.id
    ∃ outcomes staged, outcomes.map Prod.fst = expired
      ∧ (∀ mishaps : Uuid → Nat → Mishaps, (∀ job ∈ expired, final.CanSave (mishaps job 0)) →
        let reported := (opening final).run
          (failures Desk.timeoutReason moment.now mishaps expired)
        reported.desk.board = staged ∧ reported.replies =
          outcomes.map fun (_, outcome) => .answered (.ok (.failed outcome)))
      ∧ (expired = [] ∨ (final.disk.save staged.documentBytes (moment.mishaps 0)).2 = .ok () →
        ∃ after, final.reclaim moment = (.ok outcomes, after) ∧ after.board = staged
          ∧ ∀ mishaps, after.reclaim ⟨moment.now, mishaps⟩ = (.ok [], after))
      ∧ ∀ refusal, expired ≠ [] →
        (final.disk.save staged.documentBytes (moment.mishaps 0)).2 = .error refusal →
        ∃ after, final.reclaim moment = (.error (.refused refusal), after)
          ∧ Desk.Untouched final after := by
  intro final expired
  have kept : final.Kept := (kept_run (Desk.kept_of_start opened) turns).1
  have timeout := Settings.jobTimeout_of_minus? on back
  obtain ⟨outcomes, staged, failed, _⟩ :=
    kept.storable.failAll_assignedBefore Desk.timeoutReason moment.now sound
  have left := kept.storable.assignedBefore_failAll failed
  refine ⟨outcomes, staged, Board.jobs_of_failAll failed, ?_, ?_, ?_⟩
  · intro mishaps saves
    exact run_failures (opening final) saves failed
  · intro saved
    by_cases none : final.board.jobs.assignedBefore cutoff = []
    · rw [none] at failed
      cases failed
      exact ⟨final, Desk.reclaim_eq_nil timeout back none, rfl,
        fun mishaps => Desk.reclaim_eq_nil timeout back none⟩
    · obtain ⟨disk, committed⟩ := Desk.commit_of_save_ok (saved.resolve_left none)
      have reclaimed := Desk.reclaim_eq_commit timeout back none failed
      rw [committed] at reclaimed
      exact ⟨_, reclaimed, rfl, fun mishaps => Desk.reclaim_eq_nil timeout back left⟩
  · intro refusal some unsaved
    obtain ⟨after, uncommitted⟩ := Desk.commit_of_save_error unsaved
    have refused := Desk.reclaim_eq_commit timeout back some failed
    rw [uncommitted] at refused
    exact ⟨after, refused, Desk.commit_error uncommitted⟩

/-- An hour after three jobs of the tangled board were given away. -/
def anHourLater : Moment := .calm ⟨3600, 0, by decide, by decide⟩

/-- Two of the three jobs are on record with one engine. -/
theorem reclaim_eq_failures_tangled :
    Desk.start .standard Desk.tangled.disk Desk.tangled.ids = .ok .tangled
      ∧ ∃ outcomes after, Desk.tangled.reclaim anHourLater = (.ok outcomes, after)
        ∧ outcomes.map Prod.fst = [Uuid.ofNat 11, Uuid.ofNat 12, Uuid.ofNat 13]
        ∧ after.board = ((opening .tangled).run (failures Desk.timeoutReason anHourLater.now
          (fun _ _ => .none) (outcomes.map Prod.fst))).desk.board := by
  have opened := Desk.start_tangled
  have saves : Desk.tangled.CanSave .none := Desk.canSave_onFile .standard .tangled
  have back : anHourLater.now.minus? (nanosOfMs 1800000) =
      some ⟨1800, 0, by decide, by decide⟩ := by
    decide
  have expired : (Desk.tangled.board.jobs.assignedBefore ⟨1800, 0, by decide, by decide⟩) =
      [Uuid.ofNat 11, Uuid.ofNat 12, Uuid.ofNat 13] := by
    decide +kernel
  have sound : ¬ Desk.tangled.board.WornSince ⟨1800, 0, by decide, by decide⟩ :=
    Board.not_wornSince (by decide +kernel)
  obtain ⟨outcomes, staged, jobs, reported, saved, _⟩ :=
    reclaim_eq_failures opened [] rfl back sound
  obtain ⟨after, reclaimed, board, _⟩ := saved (.inr (saves staged.documentBytes))
  refine ⟨opened, outcomes, after, reclaimed, jobs.trans expired, ?_⟩
  rw [jobs]
  exact board.trans (reported (fun _ _ => .none) fun _ _ => saves).1.symm

end Session

end JobDispatch
