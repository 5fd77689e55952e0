import JobDispatch.Proofs.Board.Operation
import JobDispatch.Proofs.Disk
set_option autoImplicit false

namespace JobDispatch

open Time Desk

namespace Desk

/-- Neither the board nor the document was touched. -/
structure Untouched (before after : Desk) : Prop where
  board : after.board = before.board
  document : after.disk.document = before.disk.document
  reachable : after.disk.reachable = before.disk.reachable

/-- The board is this one, and the document is the one of it. -/
structure Holds (after : Desk) (staged : Board) : Prop where
  board : after.board = staged
  document : after.disk.document = .file staged.documentBytes
  reachable : after.disk.reachable = true

/-- Settings and ids are as before, save that ids may have been given out. -/
structure Continues (before after : Desk) : Prop where
  settings : after.settings = before.settings
  nth : after.ids.nth = before.ids.nth
  issued : before.ids.issued ≤ after.ids.issued

theorem Untouched.refl (desk : Desk) : Untouched desk desk := ⟨rfl, rfl, rfl⟩

theorem Continues.refl (desk : Desk) : Continues desk desk := ⟨rfl, rfl, Nat.le_refl _⟩

theorem Continues.trans {first second third : Desk} (left : Continues first second)
    (right : Continues second third) : Continues first third :=
  ⟨right.settings.trans left.settings, right.nth.trans left.nth, left.issued.trans right.issued⟩

theorem continues_commit (staged : Board) (mishaps : Mishaps) (desk : Desk) :
    Continues desk (desk.commit staged mishaps).2 := by
  simp only [commit]
  split <;> exact ⟨rfl, rfl, Nat.le_refl _⟩

theorem commit_ok {staged : Board} {mishaps : Mishaps} {desk after : Desk}
    (saved : desk.commit staged mishaps = (.ok (), after)) : Holds after staged := by
  simp only [commit] at saved
  split at saved
  · rename_i disk written
    cases saved
    obtain ⟨document, reachable⟩ := Disk.document_of_save_ok written
    exact ⟨rfl, document, reachable⟩
  · cases saved

theorem commit_error {staged : Board} {mishaps : Mishaps} {desk after : Desk} {refusal : Refusal}
    (failed : desk.commit staged mishaps = (.error refusal, after)) : Untouched desk after := by
  simp only [commit] at failed
  split at failed
  · cases failed
  · rename_i disk cause unwritten
    cases failed
    obtain ⟨document, reachable⟩ := Disk.document_of_save_error unwritten
    exact ⟨rfl, document, reachable⟩

section Mutate

variable {α : Type} {change : Instant → Board → Except Setback (α × Board)} {wakes : α → Bool}
  {moment : Moment} {desk after : Desk}

theorem continues_mutate : Continues desk (mutate change wakes moment desk).2 := by
  simp only [mutate]
  split
  · exact .refl desk
  · rename_i answer staged _
    have continues := continues_commit staged (moment.mishaps 0) desk
    split
    · rename_i equal
      rwa [equal] at continues
    · rename_i equal
      rw [equal] at continues
      split
      · exact ⟨continues.settings, continues.nth, continues.issued⟩
      · exact continues

theorem mutate_ok {answer : α}
    (accepted : mutate change wakes moment desk = (.ok answer, after)) :
    ∃ staged, change moment.now desk.board = .ok (answer, staged) ∧ Holds after staged := by
  simp only [mutate] at accepted
  split at accepted
  · cases accepted
  · rename_i answer staged changed
    split at accepted
    · cases accepted
    · rename_i saved
      have holds := commit_ok saved
      cases accepted
      refine ⟨staged, changed, ?_⟩
      split
      · exact ⟨holds.board, holds.document, holds.reachable⟩
      · exact holds

theorem mutate_error {setback : Setback}
    (refused : mutate change wakes moment desk = (.error setback, after)) :
    Untouched desk after := by
  simp only [mutate] at refused
  split at refused
  · cases refused
    exact .refl desk
  · split at refused
    · rename_i failed
      cases refused
      exact commit_error failed
    · cases refused

end Mutate

/-- A request that is in order uses up an id, whether the job is saved or not. -/
theorem continues_submit {request : JobRequest} (accepted : request.check = .ok ())
    (moment : Moment) (desk : Desk) :
    Continues { desk with ids.issued := desk.ids.issued + 1 } (submit request moment desk).2 := by
  simp only [submit, accepted]
  exact continues_mutate

end Desk

namespace Operation

def answering {α : Type} (render : α → Answer) (result : Except Setback α × Desk) :
    Except Setback Answer × Desk :=
  (result.1.map render, result.2)

def perform (operation : Operation) (moment : Moment) (desk : Desk) :
    Except Setback Answer × Desk :=
  match operation with
  | submit request => answering .submitted (Desk.submit request moment desk)
  | heartbeat report => answering .reported (Desk.heartbeat report moment desk)
  | benchmark engine time => answering (fun _ => .measured) (Desk.benchmark engine time moment desk)
  | complete job outputUrl =>
    answering (fun _ => .completed) (Desk.complete job outputUrl moment desk)
  | fail job reason => answering .failed (Desk.fail job reason moment desk)
  | assign => answering .attempted (Desk.assign moment desk)
  | reclaim => answering .reclaimed (Desk.reclaim moment desk)

/-- What an operation leaves behind that is answered: nothing if it was idle, and else the staged
board in memory and in the document. -/
def Settles (answer : Answer) (staged : Board) (desk after : Desk) : Prop :=
  if answer.isIdle then staged = desk.board ∧ Untouched desk after else Holds after staged

section

variable {α : Type} {render : α → Answer} {result : Except Setback α × Desk} {answer : Answer}
  {setback : Setback} {moment : Moment} {desk after : Desk}

theorem answering_snd : (answering render result).2 = result.2 := rfl

theorem answering_eq_ok : answering render result = (.ok answer, after) ↔
    ∃ a, result = (.ok a, after) ∧ render a = answer := by
  obtain ⟨outcome, reached⟩ := result
  simp only [answering, Prod.mk.injEq, map_eq_ok]
  constructor
  · rintro ⟨⟨a, accepted, told⟩, same⟩
    exact ⟨a, ⟨accepted, same⟩, told⟩
  · rintro ⟨a, ⟨accepted, same⟩, told⟩
    exact ⟨⟨a, accepted, told⟩, same⟩

theorem answering_eq_error : answering render result = (.error setback, after) ↔
    result = (.error setback, after) := by
  obtain ⟨outcome, reached⟩ := result
  simp only [answering, Prod.mk.injEq, map_eq_error]

variable {change : Instant → Board → Except Setback (α × Board)} {wakes : α → Bool}

/-- A change that always counts is carried out and saved when it is answered. -/
theorem answering_mutate_ok (counts : ∀ a, (render a).isIdle = false)
    (performed : answering render (mutate change wakes moment desk) = (.ok answer, after)) :
    ∃ staged, step render (change moment.now desk.board) = .ok (answer, staged)
      ∧ Settles answer staged desk after := by
  obtain ⟨a, accepted, told⟩ := answering_eq_ok.1 performed
  subst told
  obtain ⟨staged, changed, holds⟩ := mutate_ok accepted
  refine ⟨staged, step_eq_ok.2 ⟨a, changed, rfl⟩, ?_⟩
  rw [Settles, if_neg (by simp [counts a])]
  exact holds

theorem answering_mutate_error
    (performed : answering render (mutate change wakes moment desk) = (.error setback, after)) :
    Untouched desk after := mutate_error (answering_eq_error.1 performed)

/-- Reclaiming with a timeout that can be counted back is failing the jobs assigned before it. -/
theorem reclaim_eq {timeout : Nat} {cutoff : Instant}
    (on : desk.settings.jobTimeout = some timeout)
    (early : moment.now.minus? timeout = some cutoff) : desk.reclaim moment =
      desk.failTimedOut (desk.board.jobs.assignedBefore cutoff) moment := by
  simp only [Desk.reclaim, on, early]

theorem failTimedOut_ok {ids : List Uuid} {outcomes : List (Uuid × FailureOutcome)}
    (accepted : desk.failTimedOut ids moment = (.ok outcomes, after)) :
    ∃ staged, desk.board.failAll timeoutReason moment.now ids = .ok (outcomes, staged)
      ∧ Settles (.reclaimed outcomes) staged desk after := by
  simp only [Desk.failTimedOut] at accepted
  split at accepted
  · rename_i none
    rw [List.isEmpty_iff] at none
    subst none
    cases accepted
    exact ⟨desk.board, rfl, rfl, .refl desk⟩
  · rename_i some
    obtain ⟨staged, changed, holds⟩ := mutate_ok accepted
    have busy : outcomes.isEmpty = false := by
      have jobs := Board.jobs_of_failAll changed
      cases outcomes with
      | nil =>
        subst jobs
        exact absurd rfl some
      | cons => rfl
    refine ⟨staged, changed, ?_⟩
    simpa [Settles, Answer.isIdle, busy] using holds

/-- An operation that is answered carries out its change of the board and saves it, if there is any
change. -/
theorem perform_ok {operation : Operation}
    (performed : operation.perform moment desk = (.ok answer, after)) :
    ∃ staged, operation.transition desk.settings (desk.ids.nth desk.ids.issued) moment.now
        desk.board = .ok (answer, staged) ∧ Settles answer staged desk after := by
  cases operation with
  | submit request =>
    obtain ⟨id, accepted, told⟩ := answering_eq_ok.1 performed
    subst told
    simp only [Desk.submit] at accepted
    split at accepted
    · cases accepted
    · obtain ⟨staged, changed, holds⟩ := mutate_ok accepted
      obtain ⟨jobs, filed, equal⟩ := bind_eq_ok.1 changed
      cases equal
      refine ⟨_, ?_, holds⟩
      rw [transition, step_eq_ok]
      exact ⟨(), bind_eq_ok.2 ⟨jobs, filed, rfl⟩, rfl⟩
  | heartbeat report => exact answering_mutate_ok (fun _ => rfl) performed
  | benchmark engine time => exact answering_mutate_ok (fun _ => rfl) performed
  | complete job outputUrl => exact answering_mutate_ok (fun _ => rfl) performed
  | fail job reason => exact answering_mutate_ok (fun _ => rfl) performed
  | assign =>
    obtain ⟨outcome, accepted, told⟩ := answering_eq_ok.1 performed
    subst told
    simp only [Desk.assign] at accepted
    split at accepted
    · cases accepted
    · rename_i result staged attempt
      refine ⟨staged, ?_⟩
      split at accepted
      · rename_i assigned
        split at accepted
        · cases accepted
        · rename_i saved
          have holds := commit_ok saved
          cases accepted
          refine ⟨by simp only [transition, attempt], ?_⟩
          simpa [Settles, Answer.isIdle, assigned] using holds
      · rename_i idle
        cases accepted
        refine ⟨by simp only [transition, attempt], ?_⟩
        have same := Board.eq_of_assignNext_idle (by simpa using idle) attempt
        simpa [Settles, Answer.isIdle, idle] using And.intro same (Untouched.refl desk)
  | reclaim =>
    obtain ⟨outcomes, accepted, told⟩ := answering_eq_ok.1 performed
    subst told
    cases on : desk.settings.jobTimeout with
    | none =>
      simp only [Desk.reclaim, on] at accepted
      cases accepted
      exact ⟨desk.board, by simp only [transition, on], rfl, .refl desk⟩
    | some timeout =>
      cases early : moment.now.minus? timeout with
      | none =>
        simp only [Desk.reclaim, on, early] at accepted
        cases accepted
      | some cutoff =>
        rw [reclaim_eq on early] at accepted
        obtain ⟨staged, changed, settles⟩ := failTimedOut_ok accepted
        refine ⟨staged, ?_, settles⟩
        simp only [transition, on, early]
        exact step_eq_ok.2 ⟨outcomes, changed, rfl⟩

/-- An operation that is not carried out leaves no trace. -/
theorem perform_error {operation : Operation}
    (performed : operation.perform moment desk = (.error setback, after)) :
    Untouched desk after := by
  cases operation with
  | submit request =>
    have refused := answering_eq_error.1 performed
    simp only [Desk.submit] at refused
    split at refused
    · cases refused
      exact .refl desk
    · have untouched := mutate_error refused
      exact ⟨untouched.board, untouched.document, untouched.reachable⟩
  | heartbeat report => exact answering_mutate_error performed
  | benchmark engine time => exact answering_mutate_error performed
  | complete job outputUrl => exact answering_mutate_error performed
  | fail job reason => exact answering_mutate_error performed
  | assign =>
    have refused := answering_eq_error.1 performed
    simp only [Desk.assign] at refused
    split at refused
    · cases refused
      exact .refl desk
    · split at refused
      · split at refused
        · rename_i failed
          cases refused
          exact commit_error failed
        · cases refused
      · cases refused
  | reclaim =>
    have refused := answering_eq_error.1 performed
    simp only [Desk.reclaim] at refused
    split at refused
    · cases refused
    · split at refused
      · cases refused
        exact .refl desk
      · simp only [Desk.failTimedOut] at refused
        split at refused
        · cases refused
        · exact mutate_error refused

theorem continues_perform (operation : Operation) (moment : Moment) (desk : Desk) :
    Continues desk (operation.perform moment desk).2 := by
  cases operation with
  | submit request =>
    cases checked : request.check with
    | error refusal =>
      simp only [perform, answering, Desk.submit, checked]
      exact .refl desk
    | ok =>
      have counted := continues_submit checked moment desk
      exact ⟨counted.settings, counted.nth, (Nat.le_succ _).trans counted.issued⟩
  | heartbeat report =>
    rw [perform, answering_snd]
    exact continues_mutate
  | benchmark engine time =>
    rw [perform, answering_snd]
    exact continues_mutate
  | complete job outputUrl =>
    rw [perform, answering_snd]
    exact continues_mutate
  | fail job reason =>
    rw [perform, answering_snd]
    exact continues_mutate
  | assign =>
    simp only [perform, answering, Desk.assign]
    split
    · exact .refl desk
    · rename_i outcome staged _
      split
      · have continues := continues_commit staged (moment.mishaps 0) desk
        split
        · rename_i failed
          rwa [failed] at continues
        · rename_i saved
          rwa [saved] at continues
      · exact .refl desk
  | reclaim =>
    simp only [perform, answering, Desk.reclaim]
    split
    · exact .refl desk
    · split
      · exact .refl desk
      · simp only [Desk.failTimedOut]
        split
        · exact .refl desk
        · exact continues_mutate

end

end Operation

end JobDispatch
