import JobDispatch.Proofs.Board.Change
set_option autoImplicit false

namespace JobDispatch

open Time

/-- What was accepted, and when. -/
abbrev Log := List (Instant × Event)

def Event.submittedJob? : Event → Option Uuid
  | submitted job => some job
  | _ => none

def Log.submittedJobs (log : Log) : List Uuid := log.filterMap fun entry => entry.2.submittedJob?

theorem Log.submittedJobs_append (log later : Log) :
    (log ++ later).submittedJobs = log.submittedJobs ++ later.submittedJobs :=
  List.filterMap_append

/-- What is told last is told by the last event, if it tells anything. -/
theorem Log.getLast?_told_step {α : Type} (tell : Event → Option α) (log : Log) (now : Instant)
    (event : Event) :
    ((log ++ [(now, event)]).filterMap fun entry => tell entry.2).getLast? =
      (tell event).or (log.filterMap fun entry => tell entry.2).getLast? := by
  rw [List.filterMap_append, List.getLast?_append]
  cases told : tell event with
  | none => simp [told]
  | some value => simp [told]

namespace Board

/-- A chain of steps from one board to another. -/
inductive History (start : Board) : Log → Board → Prop where
  | start : History start [] start
  | step {log : Log} {board next : Board} {now : Instant} {event : Event}
      (before : History start log board) (change : Change now board event next) :
    History start (log ++ [(now, event)]) next

namespace History

variable {start board next : Board} {log later : Log}

theorem single {now : Instant} {event : Event} (change : Change now start event next) :
    History start [(now, event)] next :=
  .step .start change

theorem append (before : History start log board) (after : History board later next) :
    History start (log ++ later) next := by
  induction after with
  | start => rwa [List.append_nil]
  | step _ change ih =>
    rw [← List.append_assoc]
    exact .step ih change

/-- A log may be cut anywhere: some board stands between its parts. -/
theorem split {whole : Log} (history : History start whole next) (parts : whole = log ++ later) :
    ∃ board, History start log board ∧ History board later next := by
  induction history generalizing later with
  | start =>
    obtain ⟨none, none'⟩ := List.append_eq_nil_iff.1 parts.symm
    subst none none'
    exact ⟨start, .start, .start⟩
  | @step whole board next now event before change ih =>
    rcases List.eq_nil_or_concat later with none | ⟨rest, last, split⟩
    · subst none
      rw [List.append_nil] at parts
      subst parts
      exact ⟨next, before.step change, .start⟩
    · rw [split, List.concat_eq_append, ← List.append_assoc] at parts
      obtain ⟨same, entry⟩ := List.append_inj' parts rfl
      cases entry
      obtain ⟨middle, first, second⟩ := ih same
      rw [split, List.concat_eq_append]
      exact ⟨middle, first, second.step change⟩

theorem storable (history : History start log board) (storable : start.Storable) :
    board.Storable := by
  induction history with
  | start => exact storable
  | step _ change ih => exact change.storable ih

/-- A job was there from the beginning or was brought in. -/
theorem filed (history : History start log board) {id : Uuid} {job : Job}
    (found : board.jobs.get? id = some job) :
    (∃ old, start.jobs.get? id = some old) ∨ id ∈ log.submittedJobs := by
  induction history generalizing job with
  | start => exact .inl ⟨job, found⟩
  | @step log board next now event before change ih =>
    rw [Log.submittedJobs_append, List.mem_append]
    rcases change.filed found with ⟨old, earlier⟩ | new
    · rcases ih earlier with there | submitted
      · exact .inl there
      · exact .inr (.inl submitted)
    · subst new
      exact .inr (.inr (by simp [Log.submittedJobs, Event.submittedJob?]))

end History

/-- The jobs that a log brings in are new to the board and to each other. -/
structure Fresh (start : Board) (log : Log) : Prop where
  distinct : log.submittedJobs.Nodup
  unfiled : ∀ id ∈ log.submittedJobs, start.jobs.get? id = none

/-- What every step keeps that brings in a new job or none holds after all steps, as long as the
jobs that are brought in are new. -/
theorem History.induction {start board : Board} {log : Log} (property : Log → Board → Prop)
    (history : History start log board) (fresh : Fresh start log) (base : property [] start)
    (kept : ∀ log board now event next, History start log board → Change now board event next →
      (∀ id, event = .submitted id → board.jobs.get? id = none) → property log board →
      property (log ++ [(now, event)]) next) : property log board := by
  induction history with
  | start => exact base
  | @step log board next now event before change ih =>
    obtain ⟨distinct, unfiled⟩ := fresh
    rw [Log.submittedJobs_append] at distinct unfiled
    have earlier := ih ⟨(List.nodup_append.1 distinct).1,
      fun id member => unfiled id (List.mem_append_left _ member)⟩
    refine kept log board now event next before change ?_ earlier
    intro id same
    subst same
    have last : id ∈ Log.submittedJobs [(now, Event.submitted id)] := by
      simp [Log.submittedJobs, Event.submittedJob?]
    by_contra filed
    obtain ⟨job, found⟩ := Option.ne_none_iff_exists'.1 filed
    rcases before.filed found with ⟨old, there⟩ | submitted
    · have absent := unfiled id (List.mem_append_right _ last)
      rw [there] at absent
      cases absent
    · exact (List.nodup_append.1 distinct).2.2 id submitted id last rfl

/-- What was brought in late was not on file before. -/
theorem History.fresh_split {start middle : Board} {log later : Log}
    (history : History start log middle) (fresh : Fresh start (log ++ later)) :
    Fresh start log ∧ Fresh middle later := by
  obtain ⟨distinct, unfiled⟩ := fresh
  rw [Log.submittedJobs_append] at distinct unfiled
  obtain ⟨before, after, apart⟩ := List.nodup_append.1 distinct
  refine ⟨⟨before, fun id member => unfiled id (List.mem_append_left _ member)⟩, after, ?_⟩
  intro id member
  by_contra filed
  obtain ⟨job, found⟩ := Option.ne_none_iff_exists'.1 filed
  rcases history.filed found with ⟨old, there⟩ | submitted
  · have absent := unfiled id (List.mem_append_right _ member)
    rw [there] at absent
    cases absent
  · exact apart id submitted id member rfl

/-- A job stays on file with what was asked for. -/
theorem History.sameOrder {start board : Board} {log : Log} (history : History start log board)
    (fresh : Fresh start log) {id : Uuid} {job : Job} (found : start.jobs.get? id = some job) :
    ∃ later, board.jobs.get? id = some later ∧ job.SameOrder later := by
  refine history.induction
    (fun _ board => ∃ later, board.jobs.get? id = some later ∧ job.SameOrder later) fresh
    ⟨job, found, .refl job⟩ ?_
  intro log board now event next _ change new earlier
  obtain ⟨middle, there, same⟩ := earlier
  obtain ⟨later, still, again⟩ := change.sameOrder there new
  exact ⟨later, still, same.trans again⟩

theorem History.eq_of_nil {start board : Board} (history : History start [] board) :
    board = start := by
  generalize none : ([] : Log) = log at history
  cases history with
  | start => rfl
  | step => simp at none

/-- The step that a log of one entry tells of. -/
theorem History.change_of_single {start board : Board} {now : Instant} {event : Event}
    (history : History start [(now, event)] board) : Change now start event board := by
  generalize one : [(now, event)] = log at history
  cases history with
  | start => cases one
  | step before change =>
    obtain ⟨none, same⟩ := List.append_inj' (show [] ++ [(now, event)] = _ from one) rfl
    cases same
    rw [← none] at before
    rwa [before.eq_of_nil] at change

end Board

end JobDispatch
