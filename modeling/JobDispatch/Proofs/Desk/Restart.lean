import JobDispatch.Proofs.Desk.Session
set_option autoImplicit false

/- Closing the desk and opening it again goes unnoticed: nothing but a wake-up that nobody has taken
is lost, and no answer depends on that. -/
namespace JobDispatch

open Time

namespace Desk

/-- Desks that differ in a wake-up at most. -/
structure Alike (first second : Desk) : Prop where
  settings : first.settings = second.settings
  board : first.board = second.board
  disk : first.disk = second.disk
  ids : first.ids = second.ids

theorem Alike.refl (desk : Desk) : Alike desk desk := ⟨rfl, rfl, rfl, rfl⟩

/-- Two desks give the same answer and are alike afterwards. -/
def Agree {α : Type} (first second : α × Desk) : Prop :=
  ∃ answer left right, first = (answer, left) ∧ second = (answer, right) ∧ Alike left right

theorem Agree.of_alike {α : Type} {first second : Desk} (answer : α) (alike : Alike first second) :
    Agree (answer, first) (answer, second) :=
  ⟨answer, first, second, rfl, rfl, alike⟩

section

variable {first second : Desk} (alike : Alike first second)

include alike

theorem agree_commit (staged : Board) (mishaps : Mishaps) :
    Agree (first.commit staged mishaps) (second.commit staged mishaps) := by
  obtain ⟨settings, board, disk, ids⟩ := alike
  simp only [commit, disk]
  split
  · exact .of_alike _ ⟨settings, rfl, rfl, ids⟩
  · exact .of_alike _ ⟨settings, board, rfl, ids⟩

theorem agree_mutate {α : Type} (change : Instant → Board → Except Setback (α × Board))
    (wakes : α → Bool) (moment : Moment) :
    Agree (mutate change wakes moment first) (mutate change wakes moment second) := by
  simp only [mutate, alike.board]
  split
  · exact .of_alike _ alike
  · rename_i answer staged _
    obtain ⟨result, left, right, one, other, after⟩ :=
      agree_commit alike staged (moment.mishaps 0)
    rw [one, other]
    cases result with
    | error refusal => exact .of_alike _ after
    | ok done =>
      dsimp only
      split
      · exact .of_alike _ ⟨after.settings, after.board, after.disk, after.ids⟩
      · exact .of_alike _ after

theorem agree_submit (request : JobRequest) (moment : Moment) :
    Agree (submit request moment first) (submit request moment second) := by
  simp only [submit]
  split
  · exact .of_alike _ alike
  · have counted : Alike { first with ids.issued := first.ids.issued + 1 }
        { second with ids.issued := second.ids.issued + 1 } :=
      ⟨alike.settings, alike.board, alike.disk, by rw [alike.ids]⟩
    rw [alike.ids] at counted ⊢
    exact agree_mutate counted _ _ moment

theorem agree_assign (moment : Moment) : Agree (assign moment first) (assign moment second) := by
  simp only [assign, alike.board, alike.settings]
  split
  · exact .of_alike _ alike
  · rename_i outcome staged _
    split
    · obtain ⟨result, left, right, one, other, after⟩ :=
        agree_commit alike staged (moment.mishaps 0)
      rw [one, other]
      cases result <;> exact .of_alike _ after
    · exact .of_alike _ alike

theorem agree_reclaim (moment : Moment) :
    Agree (first.reclaim moment) (second.reclaim moment) := by
  simp only [reclaim, alike.board, alike.settings]
  split
  · exact .of_alike _ alike
  · split
    · exact .of_alike _ alike
    · simp only [failTimedOut]
      split
      · exact .of_alike _ alike
      · exact agree_mutate alike _ _ moment

theorem agree_perform (operation : Operation) (moment : Moment) :
    Agree (operation.perform moment first) (operation.perform moment second) := by
  have answered {α : Type} (render : α → Answer) {one other : Except Setback α × Desk}
      (agree : Agree one other) :
      Agree (Operation.answering render one) (Operation.answering render other) := by
    obtain ⟨answer, left, right, one, other, after⟩ := agree
    rw [one, other]
    exact .of_alike _ after
  cases operation with
  | submit request => exact answered _ (agree_submit alike request moment)
  | heartbeat report => exact answered _ (agree_mutate alike _ _ moment)
  | benchmark engine time => exact answered _ (agree_mutate alike _ _ moment)
  | complete job outputUrl => exact answered _ (agree_mutate alike _ _ moment)
  | fail job reason => exact answered _ (agree_mutate alike _ _ moment)
  | assign => exact answered _ (agree_assign alike moment)
  | reclaim => exact answered _ (agree_reclaim alike moment)

end

theorem agree_assignUpTo {first second : Desk} (alike : Alike first second) (limit : Nat)
    (moment : Moment) :
    Agree (first.assignUpTo limit moment) (second.assignUpTo limit moment)
      ∧ first.boundPairs limit moment = second.boundPairs limit moment := by
  induction limit generalizing first second moment with
  | zero => exact ⟨.of_alike _ alike, rfl⟩
  | succ limit ih =>
    obtain ⟨result, left, right, one, other, after⟩ := agree_assign alike moment
    simp only [assignUpTo, boundPairs, one, other]
    cases result with
    | error refusal => exact ⟨.of_alike _ after, rfl⟩
    | ok outcome =>
      cases outcome with
      | assigned job engine =>
        obtain ⟨⟨rest, left', right', one', other', last⟩, pairs⟩ := ih after (moment.afterSaves 1)
        simp only [AssignmentOutcome.pair?, one', other', pairs]
        cases rest <;> exact ⟨.of_alike _ last, trivial⟩
      | noPendingJobs => exact ⟨.of_alike _ after, rfl⟩
      | noEligibleEngines job => exact ⟨.of_alike _ after, rfl⟩

end Desk

def Turn.isReopening : Turn → Bool
  | .reopen _ => true
  | _ => false

namespace Session

/-- Runs in which callers were told the same and that stand alike. -/
structure Alike (first second : Session) : Prop where
  replies : first.replies = second.replies
  log : first.log = second.log
  desk : first.desk.Alike second.desk

/-- Operations keep two runs alike. -/
theorem alike_turn {first second : Session} (alike : Alike first second) (turn : Turn)
    (asked : turn.isReopening = false) : Alike (first.turn turn) (second.turn turn) := by
  obtain ⟨replies, log, desk⟩ := alike
  cases turn with
  | ask operation moment =>
    obtain ⟨answer, left, right, one, other, after⟩ := Desk.agree_perform desk operation moment
    simp only [Session.turn, one, other, replies, log]
    exact ⟨rfl, rfl, after⟩
  | assignAll moment =>
    obtain ⟨⟨answer, left, right, one, other, after⟩, pairs⟩ := Desk.agree_assignUpTo desk
      second.desk.board.jobs.pendingCount moment
    simp only [Session.turn, Desk.assignAll, desk.board, one, other, pairs, replies, log]
    exact ⟨rfl, rfl, after⟩
  | reopen settings => cases asked

/-- A reopening with the same settings keeps them alike, too, wherever it happens. -/
theorem alike_reopen {first second : Session} {settings : Settings} (alike : Alike first second)
    (kept : second.desk.Kept) (same : second.desk.settings = settings) :
    Alike first (second.turn (.reopen settings)) := by
  obtain ⟨replies, log, desk⟩ := alike
  simp only [Session.turn, kept.restart settings]
  exact ⟨replies, log, desk.settings.trans same, desk.board, desk.disk, desk.ids⟩

theorem settings_turn {session : Session} {settings : Settings} {turn : Turn}
    (kept : session.desk.Kept) (same : session.desk.settings = settings)
    (reopened : ∀ other, turn = .reopen other → other = settings) :
    (session.turn turn).desk.settings = settings := by
  cases turn with
  | ask operation moment =>
    exact (Operation.continues_perform operation moment session.desk).settings.trans same
  | assignAll moment =>
    exact (Desk.continues_assignUpTo _ moment session.desk).settings.trans same
  | reopen other =>
    simp only [Session.turn, kept.restart other]
    exact reopened other rfl

/-- The operations of a run, without its reopenings, lead to the same. -/
theorem alike_run {first second : Session} {settings : Settings} (alike : Alike first second)
    (kept : second.desk.Kept) (same : second.desk.settings = settings) (turns : List Turn)
    (reopened : ∀ other, Turn.reopen other ∈ turns → other = settings) :
    Alike (first.run (turns.filter fun turn => !turn.isReopening)) (second.run turns) := by
  induction turns generalizing first second with
  | nil => exact alike
  | cons turn turns ih =>
    have later (other : Settings) (member : Turn.reopen other ∈ turns) : other = settings :=
      reopened other (List.mem_cons_of_mem _ member)
    have keptNext := (kept_turn kept turn).1
    have sameNext := settings_turn kept same fun other (equal : turn = .reopen other) =>
      reopened other (by rw [equal]; exact List.mem_cons_self)
    cases asked : turn.isReopening with
    | false =>
      rw [List.filter_cons_of_pos (by simp [asked])]
      exact ih (alike_turn alike turn asked) keptNext sameNext later
    | true =>
      rw [List.filter_cons_of_neg (by simp [asked])]
      cases turn with
      | reopen other =>
        have own := reopened other List.mem_cons_self
        subst own
        exact ih (alike_reopen alike kept same) keptNext sameNext later
      | _ => cases asked

/-- In every state of a run the document holds the board, an absent document standing for an empty
one. So the desk opens again at any point, and reopening it with its settings, however often and
wherever in the run, changes no answer and no state. -/
theorem restart_transparent {settings : Settings} {disk : Disk} {ids : IdSupply} {desk : Desk}
    (opened : Desk.start settings disk ids = .ok desk) (turns : List Turn) :
    let final := (opening desk).run turns
    (final.desk.disk.load.map fun loaded => loaded.getD Board.empty) = .ok final.desk.board
      ∧ (∀ other supply, ∃ fresh, Desk.start other final.desk.disk supply = .ok fresh
        ∧ fresh.board = final.desk.board)
      ∧ ((∀ other, Turn.reopen other ∈ turns → other = settings) →
        Alike ((opening desk).run (turns.filter fun turn => !turn.isReopening)) final) := by
  have kept := Desk.kept_of_start opened
  have finalKept := (kept_run kept turns).1
  obtain ⟨loaded, read, equal⟩ := map_eq_ok.1 finalKept.loads
  refine ⟨finalKept.loads, ?_, ?_⟩
  · intro other supply
    exact ⟨_, Desk.start_eq_ok.2 ⟨loaded, read, rfl⟩, equal⟩
  · intro reopened
    obtain ⟨_, _, same⟩ := Desk.start_eq_ok.1 opened
    exact alike_run ⟨rfl, rfl, .refl desk⟩ kept (by rw [same]; rfl) turns reopened

/-- A run in which the desk is reopened after it took in a job. -/
def reopenedOnce : List Turn :=
  [.ask (.submit ⟨"in", "out", Binary64.zero false, 1⟩) .first, .reopen .standard]

theorem restart_transparent_reopenedOnce :
    Desk.start .standard (Desk.initial .standard).disk (Desk.initial .standard).ids =
        .ok (Desk.initial .standard)
      ∧ (∀ other, Turn.reopen other ∈ reopenedOnce → other = .standard)
      ∧ ((opening (Desk.initial .standard)).run reopenedOnce).desk.board.jobs.size = 1
      ∧ Alike ((opening (Desk.initial .standard)).run
          (reopenedOnce.filter fun turn => !turn.isReopening))
        ((opening (Desk.initial .standard)).run reopenedOnce) := by
  have opened := Desk.start_initial .standard
  have same (other : Settings) (member : Turn.reopen other ∈ reopenedOnce) :
      other = .standard := by
    simpa [reopenedOnce] using member
  have alike := (restart_transparent opened reopenedOnce).2.2 same
  have size : ((opening (Desk.initial .standard)).run
      (reopenedOnce.filter fun turn => !turn.isReopening)).desk.board.jobs.size = 1 := by
    decide +kernel
  rw [alike.desk.board] at size
  exact ⟨opened, same, size, alike⟩

end Session

end JobDispatch
