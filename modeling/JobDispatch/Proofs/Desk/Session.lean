import JobDispatch.Proofs.Desk.Passes
set_option autoImplicit false

/- Whole runs of a desk: operations one after another, with any saves failing, and the desk closed
and opened again at any point. In every state of a run the document holds the board, and the log
tells by which steps the board came about. -/
namespace JobDispatch

open Time

inductive Turn where
  | ask (operation : Operation) (moment : Moment)
  | assignAll (moment : Moment)
  | reopen (settings : Settings)

inductive Reply where
  | answered (answer : Except Setback Answer)
  | drained (pairs : Except Setback (List (Uuid × String)))
deriving DecidableEq

/-- A desk in the course of a run, with all that callers were told and all that was accepted. -/
structure Session where
  desk : Desk
  replies : List Reply
  log : Log

/-- What an operation adds to the log, which is nothing when it is refused. -/
def Operation.eventsOf (operation : Operation) : Except Setback Answer → List Event
  | .ok answer => operation.events answer
  | .error _ => []

/-- The pairs that so many attempts bring together and save, also when a later one is refused. -/
def Desk.boundPairs : Nat → Moment → Desk → List (Uuid × String)
  | 0, _, _ => []
  | limit + 1, moment, desk =>
    match desk.assign moment with
    | (.ok (.assigned job engine), desk) =>
      (job, engine) :: boundPairs limit (moment.afterSaves 1) desk
    | _ => []

namespace Session

def opening (desk : Desk) : Session := ⟨desk, [], []⟩

def turn (session : Session) : Turn → Session
  | .ask operation moment =>
    let (answer, desk) := operation.perform moment session.desk
    ⟨desk, session.replies ++ [.answered answer],
      session.log ++ Log.at moment.now (operation.eventsOf answer)⟩
  | .assignAll moment =>
    let (pairs, desk) := session.desk.assignAll moment
    let bound := session.desk.boundPairs session.desk.board.jobs.pendingCount moment
    ⟨desk, session.replies ++ [.drained pairs],
      session.log ++ Log.at moment.now (bound.map fun (job, engine) => .bound job engine)⟩
  | .reopen settings => { session with desk := (session.desk.restart settings).2 }

def run (session : Session) (turns : List Turn) : Session := turns.foldl turn session

end Session

namespace Desk

/-- The document holds the board; without a document the board is empty. -/
structure Kept (desk : Desk) : Prop where
  storable : desk.board.Storable
  loads : desk.disk.load.map (fun loaded => loaded.getD Board.empty) = .ok desk.board

/-- A desk that opens has its board from the document. -/
theorem start_eq_ok {settings : Settings} {disk : Disk} {ids : IdSupply} {desk : Desk} :
    start settings disk ids = .ok desk ↔ ∃ loaded, disk.load = .ok loaded
      ∧ desk = ⟨settings, loaded.getD Board.empty, false, disk, ids⟩ := by
  rw [start, bind_eq_ok]
  simp only [pure, Except.pure, Except.ok.injEq, eq_comm]

theorem storable_of_load {disk : Disk} {board : Board} (loaded : disk.load = .ok (some board)) :
    board.Storable := by
  obtain ⟨_, content, _, read⟩ := Disk.load_eq_ok_some.1 loaded
  exact Board.storable_of_ofBytes? read

theorem kept_of_start {settings : Settings} {disk : Disk} {ids : IdSupply} {desk : Desk}
    (opened : start settings disk ids = .ok desk) : desk.Kept := by
  obtain ⟨loaded, read, equal⟩ := start_eq_ok.1 opened
  subst equal
  constructor
  · cases loaded with
    | none => exact Board.storable_empty
    | some board => exact storable_of_load read
  · simp only [read, Except.map]

theorem Kept.of_untouched {before after : Desk} (kept : before.Kept)
    (untouched : Untouched before after) : after.Kept := by
  obtain ⟨board, document, reachable⟩ := untouched
  constructor
  · rw [board]
    exact kept.storable
  · rw [board, Disk.load_congr document reachable]
    exact kept.loads

theorem kept_of_holds {after : Desk} {staged : Board} (storable : staged.Storable)
    (holds : Holds after staged) : after.Kept := by
  obtain ⟨board, document, reachable⟩ := holds
  constructor
  · rw [board]
    exact storable
  · have read := Board.ofBytes?_documentBytes storable
    simp only [Disk.load, reachable, document, read, board, if_true, Except.map, Option.getD_some]

/-- A desk whose document holds its board opens again as it was, save for a wake-up that nobody has
taken yet. -/
theorem Kept.restart {desk : Desk} (kept : desk.Kept) (settings : Settings) :
    desk.restart settings = (.ok (), { desk with settings := settings, wakeUp := false }) := by
  obtain ⟨loaded, read, equal⟩ := map_eq_ok.1 kept.loads
  have opened : start settings desk.disk desk.ids =
      .ok ⟨settings, desk.board, false, desk.disk, desk.ids⟩ :=
    start_eq_ok.2 ⟨loaded, read, by rw [equal]⟩
  rw [Desk.restart, opened]

theorem Kept.of_settles {answer : Answer} {staged : Board} {desk after : Desk} (kept : desk.Kept)
    (storable : staged.Storable) (settles : Operation.Settles answer staged desk after) :
    after.Kept := by
  simp only [Operation.Settles] at settles
  split at settles
  · exact kept.of_untouched settles.2
  · exact kept_of_holds storable settles

theorem board_of_settles {answer : Answer} {staged : Board} {desk after : Desk}
    (settles : Operation.Settles answer staged desk after) : after.board = staged := by
  simp only [Operation.Settles] at settles
  split at settles
  · exact settles.2.board.trans settles.1.symm
  · exact settles.board

/-- An operation keeps the document in step with the board, and its events tell how the board came
about. -/
theorem Kept.perform {desk : Desk} (kept : desk.Kept) (operation : Operation) (moment : Moment) :
    (operation.perform moment desk).2.Kept
      ∧ desk.board.History (Log.at moment.now
          (operation.eventsOf (operation.perform moment desk).1))
        (operation.perform moment desk).2.board := by
  cases performed : operation.perform moment desk with
  | mk answer after =>
    cases answer with
    | error fault =>
      have untouched := Operation.perform_error performed
      refine ⟨kept.of_untouched untouched, ?_⟩
      simp only [untouched.board]
      exact .start
    | ok answer =>
      obtain ⟨staged, accepted, settles⟩ := Operation.perform_ok performed
      have history := Operation.history_of_transition kept.storable accepted
      refine ⟨kept.of_settles (history.storable kept.storable) settles, ?_⟩
      simp only [board_of_settles settles]
      exact history

theorem Kept.afterPasses {desk : Desk} (kept : desk.Kept) (moment : Moment) (passes : Nat) :
    (desk.afterPasses moment passes).Kept := by
  induction passes with
  | zero => exact kept
  | succ passes ih => exact (ih.perform .assign (moment.afterSaves passes)).1

/-- So do attempts up to a limit, whether one is refused or not. -/
theorem Kept.assignUpTo {desk : Desk} (kept : desk.Kept) (limit : Nat) (moment : Moment) :
    (desk.assignUpTo limit moment).2.Kept
      ∧ desk.board.History (Log.at moment.now
          ((desk.boundPairs limit moment).map fun (job, engine) => .bound job engine))
        (desk.assignUpTo limit moment).2.board := by
  induction limit generalizing desk moment with
  | zero => exact ⟨kept, .start⟩
  | succ limit ih =>
    have attempt := kept.perform .assign moment
    simp only [Operation.perform, Operation.answering] at attempt
    cases tried : desk.assign moment with
    | mk answer middle =>
      rw [tried] at attempt
      obtain ⟨middleKept, first⟩ := attempt
      cases answer with
      | error refusal =>
        simp only [Desk.assignUpTo, boundPairs, tried]
        exact ⟨middleKept, first⟩
      | ok outcome =>
        cases outcome with
        | assigned job engine =>
          obtain ⟨lastKept, later⟩ := ih middleKept (moment.afterSaves 1)
          have history := first.append later
          simp only [Desk.assignUpTo, boundPairs, tried, AssignmentOutcome.pair?]
          split
          all_goals
            rename_i rest
            rw [rest] at lastKept history
            exact ⟨lastKept, history⟩
        | noPendingJobs =>
          simp only [Desk.assignUpTo, boundPairs, tried, AssignmentOutcome.pair?]
          exact ⟨middleKept, first⟩
        | noEligibleEngines job =>
          simp only [Desk.assignUpTo, boundPairs, tried, AssignmentOutcome.pair?]
          exact ⟨middleKept, first⟩

theorem continues_assignUpTo (limit : Nat) (moment : Moment) (desk : Desk) :
    Continues desk (desk.assignUpTo limit moment).2 := by
  induction limit generalizing desk moment with
  | zero => exact .refl desk
  | succ limit ih =>
    have first := Operation.continues_perform .assign moment desk
    simp only [Operation.perform, Operation.answering] at first
    simp only [Desk.assignUpTo]
    split
    · rename_i tried
      rwa [tried] at first
    · rename_i middle tried
      rw [tried] at first
      split
      · exact first
      · have later := ih (moment.afterSaves 1) middle
        split
        all_goals
          rename_i rest
          rw [rest] at later
          exact first.trans later

/-- The pairs of a run of attempts that is not refused are the ones that were saved. -/
theorem pairs_of_assignUpTo {limit : Nat} {moment : Moment} {desk after : Desk}
    {pairs : List (Uuid × String)} (accepted : desk.assignUpTo limit moment = (.ok pairs, after)) :
    desk.boundPairs limit moment = pairs := by
  induction limit generalizing desk moment pairs with
  | zero =>
    cases accepted
    rfl
  | succ limit ih =>
    simp only [Desk.assignUpTo] at accepted
    split at accepted
    · cases accepted
    · rename_i outcome middle tried
      cases outcome with
      | assigned job engine =>
        simp only [AssignmentOutcome.pair?] at accepted
        split at accepted
        · cases accepted
        · rename_i rest
          cases accepted
          simp only [boundPairs, tried, ih rest]
      | noPendingJobs =>
        cases accepted
        simp only [boundPairs, tried]
      | noEligibleEngines job =>
        cases accepted
        simp only [boundPairs, tried]

end Desk

/-- The ids that are given out from one count to another. -/
def IdSupply.between (ids : IdSupply) (first last : Nat) : List Uuid :=
  (List.range' first (last - first)).map ids.nth

theorem IdSupply.between_append (ids : IdSupply) {first middle last : Nat} (low : first ≤ middle)
    (high : middle ≤ last) : ids.between first middle ++ ids.between middle last =
      ids.between first last := by
  obtain ⟨near, same⟩ := Nat.exists_eq_add_of_le low
  subst same
  obtain ⟨far, same⟩ := Nat.exists_eq_add_of_le high
  subst same
  simp only [between, ← List.map_append, Nat.add_assoc, Nat.add_sub_cancel_left,
    Nat.add_sub_add_left, List.range'_append_1]

theorem Log.submittedJobs_at (now : Instant) (events : List Event) :
    (Log.at now events).submittedJobs = events.filterMap Event.submittedJob? := by
  simp only [submittedJobs, Log.at, List.filterMap_map, Function.comp_def]

namespace Operation

theorem submittedJobs_events {operation : Operation} (answer : Answer)
    (other : ∀ request, operation ≠ .submit request) :
    (operation.events answer).filterMap Event.submittedJob? = [] := by
  cases operation with
  | submit request => exact absurd rfl (other request)
  | assign =>
    cases answer with
    | attempted outcome => cases outcome <;> rfl
    | _ => rfl
  | reclaim =>
    cases answer with
    | reclaimed outcomes =>
      rw [events, List.filterMap_map, List.filterMap_eq_nil_iff]
      intro entry _
      rfl
    | _ => rfl
  | _ => cases answer <;> rfl

/-- A submission that is answered uses up the next id. -/
theorem submit_uses_id {request : JobRequest} {moment : Moment} {desk after : Desk}
    {answer : Answer} (performed : (submit request).perform moment desk = (.ok answer, after)) :
    answer = .submitted (desk.ids.nth desk.ids.issued) ∧ desk.ids.issued < after.ids.issued := by
  obtain ⟨staged, accepted, _⟩ := perform_ok performed
  rw [transition, step_eq_ok] at accepted
  obtain ⟨_, _, told⟩ := accepted
  refine ⟨told.symm, ?_⟩
  obtain ⟨id, submitted, _⟩ := answering_eq_ok.1 performed
  cases checked : request.check with
  | error refusal =>
    simp only [Desk.submit, checked] at submitted
    cases submitted
  | ok =>
    have counted := Desk.continues_submit checked moment desk
    rw [submitted] at counted
    exact counted.issued

/-- The jobs that an operation brings in have ids that it gives out. -/
theorem submitted_of_perform (operation : Operation) (moment : Moment) (desk : Desk) :
    (Log.at moment.now (operation.eventsOf (operation.perform moment desk).1)).submittedJobs.Sublist
      (desk.ids.between desk.ids.issued (operation.perform moment desk).2.ids.issued) := by
  rw [Log.submittedJobs_at]
  cases performed : operation.perform moment desk with
  | mk result after =>
    cases result with
    | error fault => exact List.nil_sublist _
    | ok answer =>
      by_cases submission : ∃ request, operation = .submit request
      · obtain ⟨request, same⟩ := submission
        subst same
        obtain ⟨told, used⟩ := submit_uses_id performed
        obtain ⟨more, count⟩ := Nat.exists_eq_add_of_lt used
        subst told
        have first : after.ids.issued - desk.ids.issued = more + 1 := by omega
        simp only [eventsOf, events, IdSupply.between, first, List.range'_succ, List.map_cons,
          List.filterMap_cons, Event.submittedJob?, List.filterMap_nil]
        exact List.Sublist.cons_cons _ (List.nil_sublist _)
      · have none := submittedJobs_events answer fun request same => submission ⟨request, same⟩
        simp only [eventsOf, none]
        exact List.nil_sublist _

end Operation

/-- The beginning of 1970, at which all saves succeed. -/
def Moment.first : Moment := .calm ⟨0, 0, by decide, by decide⟩

/-- A desk that was opened for the first time, whose ids are numbered. -/
def Desk.initial (settings : Settings) : Desk :=
  ⟨settings, Board.empty, false, ⟨.vacant, .vacant, true⟩, ⟨Uuid.ofNat, 0⟩⟩

theorem Desk.start_initial (settings : Settings) :
    start settings (initial settings).disk (initial settings).ids = .ok (initial settings) := rfl

/-- A desk that was opened over the document of a board, whose ids are numbered. -/
def Desk.onFile (settings : Settings) (board : Board) : Desk :=
  { initial settings with
    board := board
    disk := ⟨.file board.documentBytes, .vacant, true⟩ }

theorem Desk.start_onFile (settings : Settings) {board : Board} (storable : board.Storable) :
    start settings (onFile settings board).disk (onFile settings board).ids =
      .ok (onFile settings board) := by
  refine start_eq_ok.2 ⟨some board, ?_, rfl⟩
  exact Disk.load_eq_ok_some.2 ⟨rfl, _, rfl, Board.ofBytes?_documentBytes storable⟩

namespace Session

theorem run_concat (session : Session) (turns : List Turn) (last : Turn) :
    session.run (turns ++ [last]) = (session.run turns).turn last := by
  rw [run, List.foldl_append]
  rfl

/-- A turn keeps the document in step with the board, and its part of the log tells how the board
came about. -/
theorem kept_turn {session : Session} (kept : session.desk.Kept) (turn : Turn) :
    (session.turn turn).desk.Kept ∧ ∃ added, (session.turn turn).log = session.log ++ added
      ∧ session.desk.board.History added (session.turn turn).desk.board := by
  cases turn with
  | ask operation moment =>
    obtain ⟨after, history⟩ := kept.perform operation moment
    exact ⟨after, _, rfl, history⟩
  | assignAll moment =>
    obtain ⟨after, history⟩ := kept.assignUpTo session.desk.board.jobs.pendingCount moment
    exact ⟨after, _, rfl, history⟩
  | reopen settings =>
    simp only [Session.turn, kept.restart settings]
    exact ⟨⟨kept.storable, kept.loads⟩, [], (List.append_nil _).symm, .start⟩

/-- In every state of a run the document holds the board, and the log tells how it came about. -/
theorem kept_run {desk : Desk} (kept : desk.Kept) (turns : List Turn) :
    ((opening desk).run turns).desk.Kept
      ∧ desk.board.History ((opening desk).run turns).log
        ((opening desk).run turns).desk.board := by
  induction turns using List.reverseRecOn with
  | nil => exact ⟨kept, .start⟩
  | append_singleton turns turn ih =>
    obtain ⟨before, history⟩ := ih
    obtain ⟨after, added, log, later⟩ := kept_turn before turn
    rw [run_concat]
    refine ⟨after, ?_⟩
    rw [log]
    exact history.append later

/-- What a turn adds to the log are jobs under ids that it gives out. -/
theorem submitted_turn {session : Session} (kept : session.desk.Kept) (turn : Turn) :
    (session.turn turn).desk.ids.nth = session.desk.ids.nth
      ∧ session.desk.ids.issued ≤ (session.turn turn).desk.ids.issued
      ∧ ∃ added, (session.turn turn).log = session.log ++ added ∧ added.submittedJobs.Sublist
        (session.desk.ids.between session.desk.ids.issued (session.turn turn).desk.ids.issued) := by
  cases turn with
  | ask operation moment =>
    obtain ⟨_, nth, issued⟩ := Operation.continues_perform operation moment session.desk
    exact ⟨nth, issued, _, rfl, Operation.submitted_of_perform operation moment session.desk⟩
  | assignAll moment =>
    obtain ⟨_, nth, issued⟩ := Desk.continues_assignUpTo session.desk.board.jobs.pendingCount moment
      session.desk
    refine ⟨nth, issued, _, rfl, ?_⟩
    have none (pairs : List (Uuid × String)) : (Log.at moment.now
        (pairs.map fun (job, engine) => Event.bound job engine)).submittedJobs = [] := by
      rw [Log.submittedJobs_at, List.filterMap_map, List.filterMap_eq_nil_iff]
      intro pair _
      rfl
    rw [none]
    exact List.nil_sublist _
  | reopen settings =>
    simp only [Session.turn, kept.restart settings]
    exact ⟨trivial, Nat.le_refl _, [], (List.append_nil _).symm, List.nil_sublist _⟩

/-- The jobs that were brought in during a run have ids that were given out in it, in order. -/
theorem submitted_run {desk : Desk} (kept : desk.Kept) (turns : List Turn) :
    ((opening desk).run turns).desk.ids.nth = desk.ids.nth
      ∧ desk.ids.issued ≤ ((opening desk).run turns).desk.ids.issued
      ∧ ((opening desk).run turns).log.submittedJobs.Sublist
        (desk.ids.between desk.ids.issued ((opening desk).run turns).desk.ids.issued) := by
  induction turns using List.reverseRecOn with
  | nil => exact ⟨rfl, Nat.le_refl _, List.nil_sublist _⟩
  | append_singleton turns turn ih =>
    obtain ⟨nth, issued, submitted⟩ := ih
    obtain ⟨nth', issued', added, log, new⟩ := submitted_turn (kept_run kept turns).1 turn
    rw [run_concat]
    refine ⟨nth'.trans nth, issued.trans issued', ?_⟩
    rw [log, Log.submittedJobs_append, ← IdSupply.between_append _ issued issued']
    refine submitted.append ?_
    rwa [IdSupply.between, nth] at new

end Session

end JobDispatch
