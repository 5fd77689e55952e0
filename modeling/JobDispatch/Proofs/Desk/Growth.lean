import JobDispatch.Proofs.Board.Growth
import JobDispatch.Proofs.Desk.AnyDocument
import JobDispatch.Proofs.Desk.Bookkeeping
import Mathlib.Data.List.Chain
set_option autoImplicit false

namespace JobDispatch

open Time

namespace Board

/-- Every job that is on file stays so, and is as it was or moved on by one state. -/
def Moved (before after : Board) : Prop :=
  ∀ id job, before.jobs.get? id = some job →
    ∃ later, after.jobs.get? id = some later ∧ job.Moved later

/-- Boards that follow one another, each moved on from the one before it. -/
structure Trail (before : Board) (boards : List Board) (after : Board) : Prop where
  chain : (before :: boards).IsChain Moved
  last : (before :: boards).getLast? = some after

theorem Trail.refl (board : Board) : Trail board [] board := ⟨List.isChain_singleton board, rfl⟩

theorem Trail.cons {before middle after : Board} {boards : List Board}
    (moved : before.Moved middle) (trail : Trail middle boards after) :
    Trail before (middle :: boards) after :=
  ⟨List.isChain_cons_cons.2 ⟨moved, trail.chain⟩, trail.last⟩

theorem Trail.append {before middle after : Board} {boards more : List Board}
    (first : Trail before boards middle) (second : Trail middle more after) :
    Trail before (boards ++ more) after := by
  obtain ⟨chain, last⟩ := second
  rw [List.isChain_cons] at chain
  constructor
  · refine List.IsChain.append first.chain chain.2 ?_
    intro board ends
    rw [first.last, Option.mem_some_iff] at ends
    subst ends
    exact chain.1
  · rw [← List.cons_append, List.getLast?_append, first.last, ← last]
    cases more with
    | nil => simp
    | cons board more => simp [List.getLast?_cons]

/-- Chains of steps in which each job is told of once at most move the board on. -/
theorem History.moved {before after : Board} {log : Log} (history : History before log after)
    (fresh : Fresh before log) (once : (log.filterMap fun entry => entry.2.job?).Nodup) :
    before.Moved after := by
  intro id job found
  obtain ⟨later, still, step⟩ := history.job_step_of_nodup fresh once found
  exact ⟨later, still, step.moved⟩

end Board

namespace Desk

/-- One operation moves the board on. -/
theorem Kept.moved_perform {desk : Desk} (kept : desk.Kept) (operation : Operation)
    (moment : Moment) (fresh : Board.Fresh desk.board (Log.at moment.now
      (operation.eventsOf (operation.perform moment desk).1))) :
    desk.board.Moved (operation.perform moment desk).2.board := by
  refine (kept.perform operation moment).2.moved fresh ?_
  cases performed : operation.perform moment desk with
  | mk result after =>
    cases result with
    | error fault => exact List.nodup_nil
    | ok answer =>
      obtain ⟨staged, accepted, _⟩ := Operation.perform_ok performed
      have once := Operation.nodup_events kept.storable accepted
      simpa [Log.at, Operation.eventsOf, Function.comp_def, List.filterMap_map] using once

/-- The boards that so many attempts save, one after another. -/
def boundBoards : Nat → Moment → Desk → List Board
  | 0, _, _ => []
  | limit + 1, moment, desk =>
    match desk.assign moment with
    | (.ok (.assigned _ _), desk) => desk.board :: boundBoards limit (moment.afterSaves 1) desk
    | _ => []

/-- Each attempt moves the board on, up to where the attempts end or one is refused. -/
theorem Kept.trail_assignUpTo {desk : Desk} (kept : desk.Kept) (limit : Nat) (moment : Moment) :
    desk.board.Trail (desk.boundBoards limit moment) (desk.assignUpTo limit moment).2.board := by
  induction limit generalizing desk moment with
  | zero => exact .refl desk.board
  | succ limit ih =>
    have attempt := kept.perform .assign moment
    have moved := kept.moved_perform .assign moment
    simp only [Operation.perform, Operation.answering] at attempt moved
    cases tried : desk.assign moment with
    | mk answer middle =>
      rw [tried] at attempt moved
      cases answer with
      | error refusal =>
        have same : middle.board = desk.board := attempt.2.eq_of_nil
        simp only [Desk.assignUpTo, boundBoards, tried, same]
        exact .refl desk.board
      | ok outcome =>
        cases outcome with
        | assigned job engine =>
          have later := ih attempt.1 (moment.afterSaves 1)
          have first := moved (.of_submittedJobs_eq_nil rfl)
          simp only [Desk.assignUpTo, boundBoards, tried, AssignmentOutcome.pair?]
          split
          all_goals
            rename_i rest
            rw [rest] at later
            exact .cons first later
        | noPendingJobs =>
          have same : middle.board = desk.board := attempt.2.eq_of_nil
          simp only [Desk.assignUpTo, boundBoards, tried, AssignmentOutcome.pair?, same]
          exact .refl desk.board
        | noEligibleEngines job =>
          have same : middle.board = desk.board := attempt.2.eq_of_nil
          simp only [Desk.assignUpTo, boundBoards, tried, AssignmentOutcome.pair?, same]
          exact .refl desk.board

end Desk

namespace Session

/-- The boards of a turn, one for each save; without any, the board that is left as it was. -/
def boards (session : Session) : Turn → List Board
  | .ask operation moment => [(operation.perform moment session.desk).2.board]
  | .assignAll moment => session.desk.boundBoards session.desk.board.jobs.pendingCount moment
  | .reopen settings => [(session.desk.restart settings).2.board]

/-- The boards of a run, turn by turn. -/
def trail (session : Session) : List Turn → List Board
  | [] => []
  | turn :: turns => session.boards turn ++ (session.turn turn).trail turns

theorem trail_concat (session : Session) (turns : List Turn) (last : Turn) :
    session.trail (turns ++ [last]) = session.trail turns ++ (session.run turns).boards last := by
  induction turns generalizing session with
  | nil => simp [trail, run]
  | cons turn turns ih =>
    rw [List.cons_append, trail, ih, trail, List.append_assoc]
    rfl

theorem trail_turn {session : Session} (kept : session.desk.Kept) (turn : Turn)
    (fresh : ∀ added, (session.turn turn).log = session.log ++ added →
      Board.Fresh session.desk.board added) :
    session.desk.board.Trail (session.boards turn) (session.turn turn).desk.board := by
  cases turn with
  | ask operation moment =>
    exact .cons (kept.moved_perform operation moment (fresh _ rfl)) (.refl _)
  | assignAll moment => exact kept.trail_assignUpTo _ moment
  | reopen settings =>
    simp only [boards, Session.turn, kept.restart settings]
    exact .cons (fun id job found => ⟨job, found, .kept rfl⟩) (.refl _)

/-- The boards of a run follow one another, each moved on from the one before it. -/
theorem trail_run {desk : Desk} (kept : desk.Kept) (turns : List Turn)
    (fresh : Board.Fresh desk.board ((opening desk).run turns).log) :
    desk.board.Trail ((opening desk).trail turns) ((opening desk).run turns).desk.board := by
  induction turns using List.reverseRecOn with
  | nil => exact .refl desk.board
  | append_singleton turns turn ih =>
    obtain ⟨before, history⟩ := kept_run kept turns
    obtain ⟨_, added, log, _⟩ := kept_turn before turn
    rw [run_concat, log] at fresh
    obtain ⟨early, late⟩ := history.fresh_split fresh
    rw [trail_concat, run_concat]
    refine (ih early).append (trail_turn before turn ?_)
    intro other same
    cases List.append_cancel_left (log.symm.trans same)
    exact late

/-- What comes later in a run is a history of the board that stood before. -/
theorem kept_later {session : Session} (kept : session.desk.Kept) (turns : List Turn) :
    (session.run turns).desk.Kept ∧ ∃ added, (session.run turns).log = session.log ++ added
      ∧ session.desk.board.History added (session.run turns).desk.board := by
  induction turns using List.reverseRecOn with
  | nil => exact ⟨kept, [], (List.append_nil _).symm, .start⟩
  | append_singleton turns turn ih =>
    obtain ⟨before, earlier, grown, history⟩ := ih
    obtain ⟨after, added, log, later⟩ := kept_turn before turn
    rw [run_concat]
    exact ⟨after, earlier ++ added, by rw [log, grown, List.append_assoc], history.append later⟩

theorem run_append (session : Session) (turns later : List Turn) :
    session.run (turns ++ later) = (session.run turns).run later := List.foldl_append

/-- Over any run, whatever document it began with, the ids of the jobs and those of the engines keep
their places and new ones come at the end. Every job keeps the order that it came with and that it
was tried, and once it is done or given up all of its record, and its retries never get fewer. From
each board that is saved to the next one, a job is as it was or moves on by one state. -/
theorem records_only_grow {settings : Settings} {disk : Disk} {ids : IdSupply} {desk : Desk}
    (opened : Desk.start settings disk ids = .ok desk) (turns later : List Turn)
    (distinct : (ids.between ids.issued
      ((opening desk).run (turns ++ later)).desk.ids.issued).Nodup)
    (unfiled : ∀ id ∈ ids.between ids.issued
      ((opening desk).run (turns ++ later)).desk.ids.issued, desk.board.jobs.get? id = none) :
    let first := (opening desk).run turns
    let last := (opening desk).run (turns ++ later)
    first.desk.jobs.map Job.id <+: last.desk.jobs.map Job.id
      ∧ first.desk.engines.map Engine.id <+: last.desk.engines.map Engine.id
      ∧ (∀ id job, first.desk.board.jobs.get? id = some job →
        ∃ after, last.desk.board.jobs.get? id = some after ∧ job.Lasts after)
      ∧ desk.board.Trail ((opening desk).trail (turns ++ later)) last.desk.board := by
  intro first last
  have kept := Desk.kept_of_start opened
  obtain ⟨_, _, same⟩ := Desk.start_eq_ok.1 opened
  have fresh : Board.Fresh desk.board last.log := by
    subst same
    exact fresh_run kept (turns ++ later) distinct unfiled
  obtain ⟨keptFirst, history⟩ := kept_run kept turns
  obtain ⟨keptLast, added, log, rest⟩ := kept_later keptFirst later
  rw [← run_append] at keptLast log rest
  have freshRest : Board.Fresh first.desk.board added :=
    (history.fresh_split (by rwa [← log])).2
  obtain ⟨jobs, engines⟩ := rest.keys_prefix
  refine ⟨?_, ?_, fun id job found => rest.lasts freshRest found,
    trail_run kept (turns ++ later) fresh⟩
  · rwa [keptFirst.storable.keyed.jobKeys, keptLast.storable.keyed.jobKeys] at jobs
  · rwa [keptFirst.storable.keyed.engineKeys, keptLast.storable.keyed.engineKeys] at engines

/-- What happens after the run in which the engine of the tangled board took the waiting job: a job
is submitted, and two of the others fail. -/
def bothFailed : List Turn :=
  [.ask (.submit ⟨"in", "out", Binary64.zero false, 1⟩) .first,
    .ask (.fail (Uuid.ofNat 12) "broken") .first, .ask (.fail (Uuid.ofNat 14) "broken") .first]

theorem records_only_grow_bothFailed :
    Desk.start .standard Desk.tangled.disk Desk.tangled.ids = .ok .tangled
      ∧ (Desk.tangled.ids.between Desk.tangled.ids.issued
        ((opening .tangled).run (retaken ++ bothFailed)).desk.ids.issued).Nodup
      ∧ (∀ id ∈ Desk.tangled.ids.between Desk.tangled.ids.issued
        ((opening .tangled).run (retaken ++ bothFailed)).desk.ids.issued,
          Desk.tangled.board.jobs.get? id = none)
      ∧ ∃ done, ((opening .tangled).run retaken).desk.board.jobs.get? (Uuid.ofNat 11) = some done
        ∧ done.status = .completed
        ∧ ((opening .tangled).run (retaken ++ bothFailed)).desk.board.jobs.get? (Uuid.ofNat 11) =
          some done
        ∧ Desk.tangled.board.Trail ((opening .tangled).trail (retaken ++ bothFailed))
          ((opening .tangled).run (retaken ++ bothFailed)).desk.board := by
  have opened := Desk.start_tangled
  have distinct : (Desk.tangled.ids.between Desk.tangled.ids.issued
      ((opening .tangled).run (retaken ++ bothFailed)).desk.ids.issued).Nodup := by
    decide +kernel
  have unfiled : ∀ id ∈ Desk.tangled.ids.between Desk.tangled.ids.issued
      ((opening .tangled).run (retaken ++ bothFailed)).desk.ids.issued,
        Desk.tangled.board.jobs.get? id = none := by
    decide +kernel
  have ended : (((opening .tangled).run retaken).desk.board.jobs.get? (Uuid.ofNat 11)).map
      Job.status = some .completed := by
    decide +kernel
  obtain ⟨done, found, status⟩ := Option.map_eq_some_iff.1 ended
  obtain ⟨_, _, lasting, trail⟩ := records_only_grow opened retaken bothFailed distinct unfiled
  obtain ⟨after, still, lasts⟩ := lasting _ done found
  have same := lasts.frozen (by rw [status]; rfl)
  subst same
  exact ⟨opened, distinct, unfiled, after, found, status, still, trail⟩

end Session

end JobDispatch
