import JobDispatch.Proofs.Board.Reclaim
import JobDispatch.Proofs.Desk.Restart
set_option autoImplicit false

namespace JobDispatch

open Time

namespace Desk

/-- What comes of operations at one time: the settings are the same, saves are as possible as
before, and an assigned job was assigned at that time or is as it was. -/
structure Passed (now : Instant) (before after : Desk) : Prop where
  settings : after.settings = before.settings
  clear : before.disk.IsClear → after.disk.IsClear
  held : ∀ id job, after.board.jobs.get? id = some job → job.status = .assigned →
    job.assignedAt = some now ∨ before.board.jobs.get? id = some job

variable {now : Instant} {first second third desk : Desk}

theorem Passed.refl (now : Instant) (desk : Desk) : Passed now desk desk :=
  ⟨rfl, fun clear => clear, fun _ _ found _ => .inr found⟩

theorem Passed.trans (left : Passed now first second) (right : Passed now second third) :
    Passed now first third := by
  refine ⟨right.settings.trans left.settings, right.clear ∘ left.clear, ?_⟩
  intro id job found held
  rcases right.held id job found held with assigned | there
  · exact .inl assigned
  · exact left.held id job there held

theorem clear_commit (clear : desk.disk.IsClear) (staged : Board) (mishaps : Mishaps) :
    (desk.commit staged mishaps).2.disk.IsClear := by
  have saved := clear.save staged.documentBytes mishaps
  simp only [commit]
  split
  all_goals
    rename_i equal
    rwa [equal] at saved

theorem clear_mutate {α : Type} (clear : desk.disk.IsClear)
    (change : Instant → Board → Except Setback (α × Board)) (wakes : α → Bool) (moment : Moment) :
    (mutate change wakes moment desk).2.disk.IsClear := by
  simp only [mutate]
  split
  · exact clear
  · rename_i answer staged _
    have saved := clear_commit clear staged (moment.mishaps 0)
    split
    · rename_i equal
      rwa [equal] at saved
    · rename_i equal
      rw [equal] at saved
      split <;> exact saved

end Desk

/-- No operation puts anything in the way of a save. -/
theorem Operation.clear_perform {desk : Desk} (clear : desk.disk.IsClear) (operation : Operation)
    (moment : Moment) : (operation.perform moment desk).2.disk.IsClear := by
  cases operation with
  | submit request =>
    have counted : { desk with ids.issued := desk.ids.issued + 1 }.disk.IsClear := clear
    simp only [perform, answering, Desk.submit]
    split
    · exact clear
    · exact Desk.clear_mutate counted ..
  | heartbeat report => exact Desk.clear_mutate clear ..
  | benchmark engine time => exact Desk.clear_mutate clear ..
  | complete job outputUrl => exact Desk.clear_mutate clear ..
  | fail job reason => exact Desk.clear_mutate clear ..
  | assign =>
    simp only [perform, answering, Desk.assign]
    split
    · exact clear
    · rename_i outcome staged _
      have saved := Desk.clear_commit clear staged (moment.mishaps 0)
      split
      · split
        all_goals
          rename_i equal
          rwa [equal] at saved
      · exact clear
  | reclaim =>
    simp only [perform, answering, Desk.reclaim]
    split
    · exact clear
    · split
      · exact clear
      · simp only [Desk.failTimedOut]
        split
        · exact clear
        · exact Desk.clear_mutate clear ..

namespace Desk

theorem Kept.passed_perform {desk : Desk} (kept : desk.Kept) (operation : Operation)
    (moment : Moment) : Passed moment.now desk (operation.perform moment desk).2 := by
  refine ⟨(Operation.continues_perform operation moment desk).settings,
    fun clear => Operation.clear_perform clear operation moment, ?_⟩
  intro id job found held
  rcases (kept.perform operation moment).2.held found held with ⟨entry, member, stamped⟩ | there
  · obtain ⟨event, _, same⟩ := List.mem_map.1 member
    subst same
    exact .inl stamped
  · exact .inr there

/-- A reclaim at which no call fails and that meets no worn job goes through, and leaves no job
assigned since before the cutoff. -/
theorem Kept.reclaim_ok {desk : Desk} {moment : Moment} {timeout : Nat} {cutoff : Instant}
    (kept : desk.Kept) (clear : desk.disk.IsClear) (calm : moment.mishaps 0 = .none)
    (on : desk.settings.jobTimeout = some timeout)
    (back : moment.now.minus? timeout = some cutoff) (sound : ¬ desk.board.WornSince cutoff) :
    ∃ outcomes after, desk.reclaim moment = (.ok outcomes, after)
      ∧ ∀ id job time, after.board.jobs.get? id = some job → job.status = .assigned →
        job.assignedAt = some time → time.before cutoff = false := by
  obtain ⟨outcomes, staged, failed, left⟩ :=
    kept.storable.failAll_assignedBefore timeoutReason moment.now sound
  by_cases none : (desk.board.jobs.assignedBefore cutoff).isEmpty = true
  · rw [List.isEmpty_iff] at none
    rw [none] at failed
    cases failed
    refine ⟨[], desk, ?_, left⟩
    simp [Operation.reclaim_eq on back, none, failTimedOut]
  · have saved := Disk.save_none staged.documentBytes clear.reachable clear.document clear.draft
    refine ⟨outcomes, signal { desk with
      board := staged, disk := ⟨.file staged.documentBytes, .vacant, true⟩ }, ?_, left⟩
    simp [Operation.reclaim_eq on back, failTimedOut, none, mutate, failed, commit, calm, saved]

/-- The cutoff of a reclaim lies before the calendar begins. -/
def LeavesCalendar (settings : Settings) (now : Instant) : Prop :=
  ∃ timeout, settings.jobTimeout = some timeout ∧ now.minus? timeout = none

/-- A worn job has been assigned for longer than the job timeout. -/
def WornTimedOut (now : Instant) (desk : Desk) : Prop :=
  ∃ timeout cutoff, desk.settings.jobTimeout = some timeout ∧ now.minus? timeout = some cutoff
    ∧ desk.board.WornSince cutoff

theorem not_wornTimedOut {desk : Desk} (unworn : ∀ job ∈ desk.jobs, ¬ job.IsWorn) (now : Instant) :
    ¬ desk.WornTimedOut now := by
  rintro ⟨_, _, _, _, worn⟩
  exact Board.not_wornSince unworn worn

/-- A reclaim that meets a worn job breaks down over it and changes nothing, whatever else has timed
out. -/
theorem Kept.reclaim_of_worn {desk : Desk} {moment : Moment} (kept : desk.Kept)
    (worn : desk.WornTimedOut moment.now) :
    desk.reclaim moment = (.error (.broken .counterFull), desk) := by
  obtain ⟨timeout, cutoff, on, back, worn⟩ := worn
  have breaks := kept.storable.failAll_assignedBefore_of_worn timeoutReason moment.now worn
  have some : (desk.board.jobs.assignedBefore cutoff).isEmpty = false := by
    obtain ⟨id, job, time, found, held, stamped, early, _⟩ := worn
    have member := kept.storable.mem_assignedBefore.2 ⟨job, time, found, held, stamped, early⟩
    rw [← Bool.not_eq_true, List.isEmpty_iff]
    exact List.ne_nil_of_mem member
  simp only [Operation.reclaim_eq on back, failTimedOut, some, Bool.false_eq_true, if_false, mutate,
    breaks]

theorem reclaim_of_leavesCalendar {desk : Desk} {moment : Moment}
    (leaves : LeavesCalendar desk.settings moment.now) :
    desk.reclaim moment = (.error (.broken .outOfCalendar), desk) := by
  obtain ⟨timeout, on, early⟩ := leaves
  simp only [reclaim, on, early]

end Desk

end JobDispatch
