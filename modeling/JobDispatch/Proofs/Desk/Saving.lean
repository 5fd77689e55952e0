import JobDispatch.Proofs.Desk.Reclaim
set_option autoImplicit false

/- What an operation comes to is what its change of the board comes to, unless its save fails.
Whether a save goes through depends on the disk and on the calls that fail, not on what is saved. -/
namespace JobDispatch

open Time Desk

namespace Desk

/-- Whatever is saved at the desk with these mishaps is saved. -/
def CanSave (mishaps : Mishaps) (desk : Desk) : Prop :=
  ∀ content, (desk.disk.save content mishaps).2 = .ok ()

variable {desk after : Desk} {mishaps : Mishaps} {moment : Moment}

theorem canSave_iff : desk.CanSave mishaps ↔ desk.disk.IsClear ∧ mishaps.AreMinor :=
  ⟨fun saves => Disk.save_eq_ok_iff.1 (saves ByteArray.empty),
    fun possible _ => Disk.save_eq_ok_iff.2 possible⟩

/-- A desk that was opened over a document can save whatever it is asked to. -/
theorem canSave_onFile (settings : Settings) (board : Board) :
    (onFile settings board).CanSave .none :=
  canSave_iff.2 ⟨⟨rfl, rfl, rfl⟩, ⟨rfl, rfl, rfl, rfl⟩⟩

/-- Saves that are possible stay so, whichever calls of other saves fail. -/
theorem CanSave.perform (saves : desk.CanSave mishaps) (operation : Operation) (moment : Moment) :
    (operation.perform moment desk).2.CanSave mishaps := by
  obtain ⟨clear, minor⟩ := canSave_iff.1 saves
  exact canSave_iff.2 ⟨Operation.clear_perform clear operation moment, minor⟩

/-- The refusal is that of a save with these mishaps. -/
def SaveFails (mishaps : Mishaps) (desk : Desk) (refusal : Refusal) : Prop :=
  ∃ content, (desk.disk.save content mishaps).2 = .error refusal

theorem CanSave.not_saveFails (saves : desk.CanSave mishaps) (refusal : Refusal) :
    ¬ desk.SaveFails mishaps refusal := by
  rintro ⟨content, failed⟩
  rw [saves content] at failed
  cases failed

theorem SaveFails.storage {refusal : Refusal} (failed : desk.SaveFails mishaps refusal) :
    ∃ detail, refusal = .storage detail := by
  obtain ⟨content, failed⟩ := failed
  exact Disk.storage_of_save failed

theorem commit_of_save_ok {staged : Board}
    (saved : (desk.disk.save staged.documentBytes mishaps).2 = .ok ()) :
    ∃ disk, desk.commit staged mishaps = (.ok (), { desk with board := staged, disk := disk }) := by
  cases written : desk.disk.save staged.documentBytes mishaps with
  | mk disk result =>
    rw [written] at saved
    cases saved
    exact ⟨disk, by simp only [commit, written]⟩

theorem commit_of_save_error {staged : Board} {refusal : Refusal}
    (failed : (desk.disk.save staged.documentBytes mishaps).2 = .error refusal) :
    ∃ after, desk.commit staged mishaps = (.error refusal, after) := by
  cases written : desk.disk.save staged.documentBytes mishaps with
  | mk disk result =>
    rw [written] at failed
    cases failed
    exact ⟨{ desk with disk := disk }, by simp only [commit, written]⟩

theorem saveFails_of_commit {staged : Board} {refusal : Refusal}
    (failed : desk.commit staged mishaps = (.error refusal, after)) :
    desk.SaveFails mishaps refusal := by
  simp only [commit] at failed
  split at failed
  · cases failed
  · rename_i unwritten
    cases failed
    exact ⟨_, congrArg Prod.snd unwritten⟩

/-- A change is not carried out at the board, or else its save failed. -/
theorem unchanged_or_saveFails_of_mutate {α : Type}
    {change : Instant → Board → Except Setback (α × Board)} {wakes : α → Bool} {setback : Setback}
    (failed : mutate change wakes moment desk = (.error setback, after)) :
    change moment.now desk.board = .error setback
      ∨ ∃ refusal, setback = .refused refusal ∧ desk.SaveFails (moment.mishaps 0) refusal := by
  simp only [mutate] at failed
  split at failed
  · rename_i unchanged
    cases failed
    exact .inl unchanged
  · split at failed
    · rename_i refusal _ unsaved
      cases failed
      exact .inr ⟨refusal, rfl, saveFails_of_commit unsaved⟩
    · cases failed

end Desk

namespace Operation

variable {desk after : Desk} {moment : Moment}

/-- So it is with the operations that are one change of the board. -/
theorem unchanged_or_saveFails_of_answering {α : Type} {render : α → Answer}
    {change : Instant → Board → Except Setback (α × Board)} {wakes : α → Bool} {setback : Setback}
    (performed : answering render (mutate change wakes moment desk) = (.error setback, after)) :
    step render (change moment.now desk.board) = .error setback
      ∨ ∃ refusal, setback = .refused refusal ∧ desk.SaveFails (moment.mishaps 0) refusal :=
  (unchanged_or_saveFails_of_mutate (answering_eq_error.1 performed)).imp_left step_eq_error.2

/-- An operation meets the setback that its change of the board meets, or its save failed. -/
theorem unchanged_or_saveFails {operation : Operation} {setback : Setback}
    (performed : operation.perform moment desk = (.error setback, after)) :
    operation.transition desk.settings (desk.ids.nth desk.ids.issued) moment.now desk.board =
        .error setback
      ∨ ∃ refusal, setback = .refused refusal ∧ desk.SaveFails (moment.mishaps 0) refusal := by
  cases operation with
  | submit request =>
    have failed := answering_eq_error.1 performed
    simp only [Desk.submit] at failed
    split at failed
    · rename_i refusal invalid
      cases failed
      have unfiled : desk.board.jobs.submit (desk.ids.nth desk.ids.issued) request moment.now =
          .error refusal := bind_eq_error.2 (.inl invalid)
      refine .inl ?_
      simp only [transition]
      exact step_eq_error.2 (bind_eq_error.2 (.inl (Setback.lift_eq_error.2 ⟨_, unfiled, rfl⟩)))
    · refine (unchanged_or_saveFails_of_mutate failed).imp_left fun unchanged => ?_
      simp only [transition]
      rcases bind_eq_error.1 unchanged with unfiled | ⟨jobs, _, impossible⟩
      · exact step_eq_error.2 (bind_eq_error.2 (.inl unfiled))
      · cases impossible
  | heartbeat report => exact unchanged_or_saveFails_of_answering performed
  | benchmark engine time => exact unchanged_or_saveFails_of_answering performed
  | complete job outputUrl => exact unchanged_or_saveFails_of_answering performed
  | fail job reason => exact unchanged_or_saveFails_of_answering performed
  | assign =>
    have failed := answering_eq_error.1 performed
    simp only [Desk.assign] at failed
    split at failed
    · rename_i attempt
      cases failed
      exact .inl (by simp only [transition, attempt])
    · split at failed
      · split at failed
        · rename_i refusal _ unsaved
          cases failed
          exact .inr ⟨refusal, rfl, saveFails_of_commit unsaved⟩
        · cases failed
      · cases failed
  | reclaim =>
    have failed := answering_eq_error.1 performed
    simp only [transition]
    cases on : desk.settings.jobTimeout with
    | none =>
      simp only [Desk.reclaim, on] at failed
      cases failed
    | some timeout =>
      cases back : moment.now.minus? timeout with
      | none =>
        simp only [Desk.reclaim, on, back] at failed
        cases failed
        simp only [back, true_or]
      | some cutoff =>
        simp only [reclaim_eq on back, Desk.failTimedOut] at failed
        simp only [back]
        split at failed
        · cases failed
        · exact (unchanged_or_saveFails_of_mutate failed).imp_left step_eq_error.2

/-- Where saves go through, an operation comes to what its change of the board comes to. -/
theorem perform_of_attempt (saves : desk.CanSave (moment.mishaps 0)) {operation : Operation}
    {told : Except Setback Answer} {board : Board} (attempted : operation.attempt desk.settings
      (desk.ids.nth desk.ids.issued) moment.now desk.board = (told, board)) :
    ∃ after, operation.perform moment desk = (told, after) ∧ after.board = board := by
  cases performed : operation.perform moment desk with
  | mk answer after =>
    cases answer with
    | ok answer =>
      obtain ⟨staged, accepted, settles⟩ := perform_ok performed
      simp only [attempt, accepted] at attempted
      cases attempted
      exact ⟨after, rfl, Desk.board_of_settles settles⟩
    | error setback =>
      rcases unchanged_or_saveFails performed with unchanged | ⟨refusal, _, failed⟩
      · simp only [attempt, unchanged] at attempted
        cases attempted
        exact ⟨after, rfl, (perform_error performed).board⟩
      · exact absurd failed (saves.not_saveFails refusal)

end Operation

end JobDispatch
