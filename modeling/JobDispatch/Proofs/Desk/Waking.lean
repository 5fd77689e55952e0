import JobDispatch.Proofs.Board.Assignable
import JobDispatch.Proofs.Desk.Session
set_option autoImplicit false

namespace JobDispatch

open Time

namespace Desk

theorem wakeUp_commit (staged : Board) (mishaps : Mishaps) (desk : Desk) :
    (desk.commit staged mishaps).2.wakeUp = desk.wakeUp := by
  simp only [commit]
  split <;> rfl

/-- A change of the board leaves a wake-up when its answer says so, and never takes one. -/
theorem wakeUp_mutate {α : Type} (change : Instant → Board → Except Setback (α × Board))
    (wakes : α → Bool) (moment : Moment) (desk : Desk) :
    (mutate change wakes moment desk).2.wakeUp =
      (desk.wakeUp || (mutate change wakes moment desk).1.toOption.any wakes) := by
  simp only [mutate]
  split
  · simp [Except.toOption]
  · rename_i answer staged _
    have kept := wakeUp_commit staged (moment.mishaps 0) desk
    split
    · rename_i failed
      rw [failed] at kept
      simpa [Except.toOption] using kept
    · rename_i saved
      rw [saved] at kept
      by_cases woken : wakes answer = true
      · simp [Except.toOption, woken, signal]
      · simpa [Except.toOption, woken] using kept

/-- Jobs that are failed for their age leave a wake-up, unless there are none of them. -/
theorem wakeUp_failTimedOut (ids : List Uuid) (moment : Moment) (desk : Desk) :
    (desk.failTimedOut ids moment).2.wakeUp =
      (desk.wakeUp || (desk.failTimedOut ids moment).1.toOption.any fun outcomes =>
        !outcomes.isEmpty) := by
  cases failed : desk.failTimedOut ids moment with
  | mk result after =>
    by_cases none : ids.isEmpty = true
    · simp only [failTimedOut, if_pos none] at failed
      cases failed
      simp [Except.toOption]
    · simp only [failTimedOut, if_neg none] at failed
      have woken := wakeUp_mutate (fun now board => board.failAll timeoutReason now ids)
        (fun _ => true) moment desk
      rw [failed] at woken
      cases result with
      | error refusal => exact woken
      | ok outcomes =>
        obtain ⟨staged, changed, _⟩ := mutate_ok failed
        have jobs := Board.jobs_of_failAll changed
        have some : outcomes.isEmpty = false := by
          cases outcomes with
          | nil =>
            subst jobs
            exact absurd rfl none
          | cons => rfl
        simpa [Except.toOption, some] using woken

/-- No attempt leaves a wake-up or takes one. -/
theorem wakeUp_assign (moment : Moment) (desk : Desk) :
    (desk.assign moment).2.wakeUp = desk.wakeUp := by
  simp only [assign]
  split
  · rfl
  · rename_i outcome staged _
    split
    · have kept := wakeUp_commit staged (moment.mishaps 0) desk
      split
      · rename_i failed
        rwa [failed] at kept
      · rename_i saved
        rwa [saved] at kept
    · rfl

end Desk

namespace Operation

theorem wakeUp_answering {α : Type} {render : α → Answer} {desk : Desk}
    {result : Except Setback α × Desk} (woken : result.2.wakeUp =
      (desk.wakeUp || result.1.toOption.any fun a => (render a).wakes)) :
    (answering render result).2.wakeUp =
      (desk.wakeUp || (answering render result).1.toOption.any Answer.wakes) := by
  obtain ⟨outcome, after⟩ := result
  cases outcome <;> exact woken

/-- A wake-up is left by the answers that say so and by no others, and no operation takes one. -/
theorem wakeUp_perform (operation : Operation) (moment : Moment) (desk : Desk) :
    (operation.perform moment desk).2.wakeUp =
      (desk.wakeUp || (operation.perform moment desk).1.toOption.any Answer.wakes) := by
  cases operation with
  | submit request =>
    refine wakeUp_answering ?_
    simp only [Desk.submit]
    split
    · simp [Except.toOption]
    · exact Desk.wakeUp_mutate ..
  | heartbeat report => exact wakeUp_answering (Desk.wakeUp_mutate ..)
  | benchmark engine time => exact wakeUp_answering (Desk.wakeUp_mutate ..)
  | complete job outputUrl => exact wakeUp_answering (Desk.wakeUp_mutate ..)
  | fail job reason => exact wakeUp_answering (Desk.wakeUp_mutate ..)
  | assign =>
    refine wakeUp_answering ?_
    simp only [Desk.wakeUp_assign, Answer.wakes, Option.any_false, Bool.or_false]
  | reclaim =>
    refine wakeUp_answering ?_
    simp only [Desk.reclaim]
    split
    · simp [Except.toOption, Answer.wakes]
    · split
      · simp [Except.toOption]
      · exact Desk.wakeUp_failTimedOut ..

end Operation

namespace Desk

/-- An operation that leaves no wake-up brings in no job that waits and no engine that could take
one. -/
theorem Kept.nothingNew_perform {desk : Desk} (kept : desk.Kept) {operation : Operation}
    {moment : Moment} (asleep : (operation.perform moment desk).2.wakeUp = false) :
    desk.board.NothingNew (operation.perform moment desk).2.board := by
  rw [Operation.wakeUp_perform, Bool.or_eq_false_iff] at asleep
  cases performed : operation.perform moment desk with
  | mk result after =>
    cases result with
    | error fault =>
      simp only [(Operation.perform_error performed).board]
      exact .refl desk.board
    | ok answer =>
      obtain ⟨staged, accepted, settles⟩ := Operation.perform_ok performed
      simp only [board_of_settles settles]
      refine Operation.nothingNew_of_transition kept.storable accepted ?_
      simpa [performed, Except.toOption] using asleep.2

/-- An operation that makes an assignment possible leaves a wake-up. -/
theorem Kept.wakeUp_of_assignable {desk : Desk} (kept : desk.Kept) {operation : Operation}
    {moment : Moment} {judge : Engine → Bool} (stuck : ¬ desk.board.Assignable judge)
    (possible : (operation.perform moment desk).2.board.Assignable judge) :
    (operation.perform moment desk).2.wakeUp = true := by
  by_contra silent
  rw [Bool.not_eq_true] at silent
  exact stuck ((kept.nothingNew_perform silent).assignable possible)

/-- An attempt comes to nothing and changes nothing where no assignment is possible. -/
theorem assign_of_not_assignable {desk : Desk} {moment : Moment}
    (stuck : ¬ desk.board.Assignable (desk.settings.pairing.accepts moment.now)) :
    ∃ outcome, outcome.isAssigned = false ∧ desk.assign moment = (.ok outcome, desk) := by
  obtain ⟨outcome, nothing, attempt⟩ := Board.assignNext_of_not_assignable stuck
  exact ⟨outcome, nothing, assign_eq_of_idle attempt nothing⟩

/-- After an attempt that comes to nothing no assignment is possible. -/
theorem not_assignable_of_assign {desk after : Desk} {moment : Moment}
    {outcome : AssignmentOutcome} (attempt : desk.assign moment = (.ok outcome, after))
    (nothing : outcome.pair? = none) :
    ¬ desk.board.Assignable (desk.settings.pairing.accepts moment.now) := by
  have idle : outcome.isAssigned = false := by simp [AssignmentOutcome.isAssigned, nothing]
  simp only [assign] at attempt
  split at attempt
  · cases attempt
  · rename_i tried
    split at attempt
    · split at attempt
      · cases attempt
      · cases attempt
        exact Board.not_assignable_of_assignNext tried idle
    · cases attempt
      exact Board.not_assignable_of_assignNext tried idle

end Desk

end JobDispatch
