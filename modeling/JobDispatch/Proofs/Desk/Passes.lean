import JobDispatch.Proofs.Desk.Operations
set_option autoImplicit false

namespace JobDispatch.Desk

open Time

theorem afterSaves_zero (moment : Moment) : moment.afterSaves 0 = moment := by
  obtain ⟨now, mishaps⟩ := moment
  simp [Moment.afterSaves]

theorem afterSaves_afterSaves (moment : Moment) (first second : Nat) :
    (moment.afterSaves first).afterSaves second = moment.afterSaves (first + second) := by
  simp only [Moment.afterSaves, Nat.add_assoc]

/-- The desk after so many attempts, each with the saves that are left to it. -/
def afterPasses (moment : Moment) (desk : Desk) : Nat → Desk
  | 0 => desk
  | passes + 1 => (assign (moment.afterSaves passes) (afterPasses moment desk passes)).2

/-- What an attempt comes to that follows so many others. -/
def pass (moment : Moment) (desk : Desk) (passes : Nat) : Except Setback AssignmentOutcome × Desk :=
  assign (moment.afterSaves passes) (afterPasses moment desk passes)

/-- The first attempt may be counted apart. -/
theorem afterPasses_shift (moment : Moment) (desk : Desk) (passes : Nat) :
    afterPasses (moment.afterSaves 1) (assign moment desk).2 passes =
      afterPasses moment desk (passes + 1) := by
  induction passes with
  | zero => simp only [afterPasses, afterSaves_zero]
  | succ passes ih =>
    rw [afterPasses, ih, afterSaves_afterSaves, Nat.add_comm 1 passes]
    rfl

theorem pass_shift (moment : Moment) (desk : Desk) (passes : Nat) :
    pass (moment.afterSaves 1) (assign moment desk).2 passes = pass moment desk (passes + 1) := by
  rw [pass, afterPasses_shift, afterSaves_afterSaves, Nat.add_comm 1 passes]
  rfl

theorem pass_zero (moment : Moment) (desk : Desk) : pass moment desk 0 = assign moment desk := by
  simp only [pass, afterPasses, afterSaves_zero]

/-- An attempt that comes to nothing on the board does so at the desk, and saves nothing. -/
theorem assign_eq_of_idle {desk : Desk} {moment : Moment} {outcome : AssignmentOutcome}
    (attempt : desk.board.assignNext desk.settings.pairing moment.now moment.now =
      (.ok outcome, desk.board)) (nothing : outcome.isAssigned = false) :
    desk.assign moment = (.ok outcome, desk) := by
  simp only [assign, attempt, nothing, Bool.false_eq_true, if_false]

/-- An attempt that brings nothing together leaves the desk as it is. -/
theorem eq_of_assign_idle {moment : Moment} {desk after : Desk} {outcome : AssignmentOutcome}
    (attempt : assign moment desk = (.ok outcome, after)) (idle : outcome.pair? = none) :
    after = desk := by
  simp only [assign] at attempt
  split at attempt
  · cases attempt
  · split at attempt
    · rename_i assigned
      split at attempt
      · cases attempt
      · cases attempt
        simp [AssignmentOutcome.isAssigned, idle] at assigned
    · cases attempt
      rfl

/-- Attempts up to a limit that are not refused: the pairs are those of the attempts one after
another, and only an attempt that brings nothing together ends them before the limit. -/
theorem assignUpTo_ok {limit : Nat} {moment : Moment} {desk after : Desk}
    {pairs : List (Uuid × String)} (accepted : assignUpTo limit moment desk = (.ok pairs, after)) :
    after = afterPasses moment desk pairs.length
      ∧ (∀ index (inside : index < pairs.length), (pass moment desk index).1 =
        .ok (.assigned pairs[index].1 pairs[index].2))
      ∧ (pairs.length = limit ∨ pairs.length < limit
        ∧ ∃ outcome, pass moment desk pairs.length = (.ok outcome, after)
          ∧ outcome.isAssigned = false) := by
  induction limit generalizing moment desk pairs with
  | zero =>
    cases accepted
    exact ⟨rfl, fun index inside => absurd inside (Nat.not_lt_zero _), .inl rfl⟩
  | succ limit ih =>
    simp only [assignUpTo] at accepted
    split at accepted
    · cases accepted
    · rename_i outcome middle attempt
      split at accepted
      · rename_i idle
        cases accepted
        have same := eq_of_assign_idle attempt idle
        refine ⟨same, fun index inside => absurd inside (Nat.not_lt_zero _), .inr ?_⟩
        exact ⟨Nat.succ_pos limit, outcome, (pass_zero moment desk).trans attempt,
          by simp [AssignmentOutcome.isAssigned, idle]⟩
      · rename_i pair bound
        split at accepted
        · cases accepted
        · rename_i later last rest
          cases accepted
          have middle_eq : middle = (assign moment desk).2 := by rw [attempt]
          subst middle_eq
          obtain ⟨reached, bindings, ended⟩ := ih rest
          rw [afterPasses_shift] at reached
          simp only [pass_shift] at bindings ended
          refine ⟨reached, ?_, ?_⟩
          · intro index inside
            cases index with
            | zero =>
              rw [pass_zero, attempt]
              cases outcome with
              | assigned job engine =>
                cases bound
                rfl
              | _ => cases bound
            | succ index => exact bindings index (by simpa using inside)
          · rcases ended with full | ⟨short, stop⟩
            · exact .inl (by rw [List.length_cons, full])
            · exact .inr ⟨by rw [List.length_cons]; omega, stop⟩

/-- Attempts up to a limit that are refused: each before the one that is refused has brought a job
and an engine together. -/
theorem assignUpTo_error {limit : Nat} {moment : Moment} {desk after : Desk} {setback : Setback}
    (refused : assignUpTo limit moment desk = (.error setback, after)) :
    ∃ passes, passes < limit
      ∧ (∀ index, index < passes → ∃ job engine, (pass moment desk index).1 =
        .ok (.assigned job engine))
      ∧ pass moment desk passes = (.error setback, after) := by
  induction limit generalizing moment desk with
  | zero => cases refused
  | succ limit ih =>
    simp only [assignUpTo] at refused
    split at refused
    · rename_i attempt
      cases refused
      exact ⟨0, Nat.succ_pos limit, fun index inside => absurd inside (Nat.not_lt_zero _),
        (pass_zero moment desk).trans attempt⟩
    · rename_i outcome middle attempt
      split at refused
      · cases refused
      · rename_i pair bound
        split at refused
        · rename_i rest
          cases refused
          have middle_eq : middle = (assign moment desk).2 := by rw [attempt]
          subst middle_eq
          obtain ⟨passes, short, bindings, failed⟩ := ih rest
          rw [pass_shift] at failed
          simp only [pass_shift] at bindings
          refine ⟨passes + 1, Nat.succ_lt_succ short, ?_, failed⟩
          intro index inside
          cases index with
          | zero =>
            rw [pass_zero, attempt]
            cases outcome with
            | assigned job engine => exact ⟨job, engine, rfl⟩
            | _ => cases bound
          | succ index => exact bindings index (Nat.lt_of_succ_lt_succ inside)
        · cases refused

end JobDispatch.Desk
