import JobDispatch.Proofs.Board.Draining
import JobDispatch.Proofs.Desk.Session
set_option autoImplicit false

namespace JobDispatch

namespace Desk

variable {desk after : Desk} {moment : Moment}

/-- An attempt that brings a job and an engine together leaves one job less to wait. -/
theorem Kept.pendingCount_assign (kept : desk.Kept) {job : Uuid} {engine : String}
    (attempt : desk.assign moment = (.ok (.assigned job engine), after)) :
    after.board.jobs.pendingCount + 1 = desk.board.jobs.pendingCount := by
  have keyed := kept.storable.keyed
  have performed : Operation.assign.perform moment desk =
      (.ok (.attempted (.assigned job engine)), after) :=
    Operation.answering_eq_ok.2 ⟨_, attempt, rfl⟩
  obtain ⟨staged, accepted, settles⟩ := Operation.perform_ok performed
  rw [board_of_settles settles]
  simp only [Operation.transition] at accepted
  rcases keyed.assignNext_cases desk.settings.pairing moment.now moment.now with
    ⟨_, idle⟩ | ⟨_, _, _, idle⟩ | ⟨oldest, best, first, chosen, bound⟩
  · rw [idle] at accepted
    cases accepted
  · rw [idle] at accepted
    cases accepted
  · rw [bound] at accepted
    cases accepted
    rw [← JobLedger.length_waiting, ← JobLedger.length_waiting,
      keyed.waiting_eq_cons first best.id moment.now, List.length_cons]

theorem Kept.pendingCount_afterPasses (kept : desk.Kept) {passes : Nat}
    (bound : ∀ index, index < passes → ∃ job engine, (desk.pass moment index).1 =
      .ok (.assigned job engine)) :
    (desk.afterPasses moment passes).board.jobs.pendingCount + passes =
      desk.board.jobs.pendingCount := by
  induction passes with
  | zero => rfl
  | succ passes ih =>
    obtain ⟨job, engine, told⟩ := bound passes (Nat.lt_succ_self passes)
    have less := (kept.afterPasses moment passes).pendingCount_assign
      (Prod.ext told rfl : desk.pass moment passes = (_, desk.afterPasses moment (passes + 1)))
    have before := ih fun index inside => bound index (Nat.lt_succ_of_lt inside)
    omega

/-- Assigning all ends with an attempt that comes to nothing. -/
theorem Kept.pass_of_assignAll (kept : desk.Kept) {pairs : List (Uuid × String)}
    (accepted : desk.assignAll moment = (.ok pairs, after)) :
    ∃ outcome, desk.pass moment pairs.length = (.ok outcome, after)
      ∧ outcome.isAssigned = false := by
  obtain ⟨reached, bound, ended⟩ := assignUpTo_ok accepted
  rcases ended with full | ⟨_, stop⟩
  · -- as many jobs were taken as waited, so that none is left for the next attempt
    have taken := kept.pendingCount_afterPasses fun index inside => ⟨_, _, bound index inside⟩
    have none : (desk.afterPasses moment pairs.length).board.jobs.waiting = [] := by
      rw [← List.length_eq_zero_iff, JobLedger.length_waiting]
      omega
    obtain ⟨outcome, nothing, attempt⟩ :=
      (kept.afterPasses moment pairs.length).storable.keyed.assignNext_of_exhausted (.inl none)
    refine ⟨outcome, ?_, nothing⟩
    rw [reached]
    exact assign_eq_of_idle attempt nothing
  · exact stop

end Desk

namespace Operation

/-- An operation that is refused changes neither the board nor the document. One that is answered
leads to the board of its transition, and the document is the one of that board; if the operation
found nothing to do, board and document stay as they were. Assigning all leaves behind the work of
the attempts before the first one that is refused, or of all of them up to one that comes to
nothing. -/
theorem refused_without_trace (desk : Desk) (moment : Moment) :
    (∀ operation : Operation, match operation.perform moment desk with
      | (.error _, after) =>
        after.board = desk.board ∧ after.disk.document = desk.disk.document
      | (.ok answer, after) =>
        operation.transition desk.settings (desk.ids.nth desk.ids.issued) moment.now desk.board =
            .ok (answer, after.board)
          ∧ if answer.isIdle then
              after.board = desk.board ∧ after.disk.document = desk.disk.document
            else after.disk.document = .file after.board.documentBytes)
      ∧ match desk.assignAll moment with
        | (.error setback, after) => ∃ passes,
          (∀ index, index < passes → ∃ job engine, (desk.pass moment index).1 =
            .ok (.assigned job engine))
          ∧ (desk.pass moment passes).1 = .error setback
          ∧ after.board = (desk.afterPasses moment passes).board
          ∧ after.disk.document = (desk.afterPasses moment passes).disk.document
        | (.ok pairs, after) =>
          (∀ index (inside : index < pairs.length), (desk.pass moment index).1 =
            .ok (.assigned pairs[index].1 pairs[index].2))
          ∧ after = desk.afterPasses moment pairs.length
          ∧ (desk.Kept → ∃ outcome, desk.pass moment pairs.length = (.ok outcome, after)
            ∧ outcome.isAssigned = false) := by
  constructor
  · intro operation
    split
    · rename_i setback after performed
      have untouched := perform_error performed
      exact ⟨untouched.board, untouched.document⟩
    · rename_i answer after performed
      obtain ⟨staged, accepted, settles⟩ := perform_ok performed
      have reached := Desk.board_of_settles settles
      subst reached
      refine ⟨accepted, ?_⟩
      simp only [Settles] at settles
      split
      · rename_i idle
        rw [if_pos idle] at settles
        exact ⟨settles.1, settles.2.document⟩
      · rename_i busy
        rw [if_neg busy] at settles
        exact settles.document
  · split
    · rename_i setback after refused
      obtain ⟨passes, _, bound, failed⟩ := Desk.assignUpTo_error refused
      have attempt : assign.perform (moment.afterSaves passes) (desk.afterPasses moment passes) =
          (.error setback, after) :=
        answering_eq_error.2 failed
      have untouched := perform_error attempt
      exact ⟨passes, bound, by rw [failed], untouched.board, untouched.document⟩
    · rename_i pairs after accepted
      obtain ⟨reached, bound, _⟩ := Desk.assignUpTo_ok accepted
      exact ⟨bound, reached, fun kept => kept.pass_of_assignAll accepted⟩

end Operation

namespace Session

/-- A run after which two jobs wait and two engines can take one. -/
def twoWaiting : List Turn :=
  [.ask (.submit ⟨"in", "out", Binary64.zero false, 1⟩) .first,
    .ask (.submit ⟨"in", "out", Binary64.zero false, 1⟩) .first,
    .ask (.heartbeat ⟨"engine", .idle, Binary64.zero false⟩) .first,
    .ask (.benchmark "engine" (Binary64.zero false)) .first,
    .ask (.heartbeat ⟨"other", .idle, Binary64.zero false⟩) .first,
    .ask (.benchmark "other" (Binary64.zero false)) .first]

/-- A time at which the second of several saves cannot put its draft in place. -/
def secondStuck : Moment where
  now := Moment.first.now
  mishaps save := if save = 1 then { rename := true } else .none

end Session

open Session in
/-- When the save of the second attempt fails, the pair of the first one stays together, on the
board and in the document, and the other job waits. -/
theorem Operation.refused_without_trace_secondPass :
    let desk := ((opening (Desk.initial .standard)).run twoWaiting).desk
    (desk.assignAll secondStuck).1.isOk = false
      ∧ (desk.assignAll secondStuck).2.board = (desk.afterPasses secondStuck 1).board
      ∧ (desk.assignAll secondStuck).2.disk.document =
        (desk.afterPasses secondStuck 1).disk.document
      ∧ (desk.assignAll secondStuck).2.board.jobs.records.map Job.status =
        [.assigned, .pending] := by
  intro desk
  have told : (desk.assignAll secondStuck).1.isOk = false := by decide +kernel
  have statuses : (desk.assignAll secondStuck).2.board.jobs.records.map Job.status =
      [.assigned, .pending] := by
    decide +kernel
  have first : (desk.pass secondStuck 0).1.isOk = true := by decide +kernel
  have second : (desk.pass secondStuck 1).1.isOk = false := by decide +kernel
  have trace := (refused_without_trace desk secondStuck).2
  cases refused : desk.assignAll secondStuck with
  | mk result after =>
    rw [refused] at told statuses trace
    cases result with
    | ok pairs => cases told
    | error setback =>
      obtain ⟨passes, bound, failed, board, document⟩ := trace
      have single : passes = 1 := by
        refine le_antisymm ?_ (Nat.pos_of_ne_zero ?_)
        · by_contra more
          obtain ⟨job, engine, went⟩ := bound 1 (by omega)
          rw [went] at second
          cases second
        · intro none
          rw [none] at failed
          rw [failed] at first
          cases first
      subst single
      exact ⟨told, board, document, statuses⟩

end JobDispatch
