import JobDispatch.Proofs.Board.Growth
set_option autoImplicit false

namespace JobDispatch

open Time

/-- The jobs that are listed are those that are assigned since before the time. -/
theorem Board.Storable.mem_assignedBefore {board : Board} (storable : board.Storable)
    {cutoff : Instant} {id : Uuid} : id ∈ board.jobs.assignedBefore cutoff ↔
      ∃ job time, board.jobs.get? id = some job ∧ job.status = .assigned
        ∧ job.assignedAt = some time ∧ time.before cutoff = true := by
  simp only [JobLedger.assignedBefore, List.mem_map, List.mem_filter, Bool.and_eq_true,
    decide_eq_true_eq, Option.any_eq_true]
  constructor
  · rintro ⟨job, ⟨member, held, time, stamped, early⟩, own⟩
    obtain ⟨key, found⟩ := Ledger.mem_records_iff.1 member
    have same := (storable.jobs key job found).1
    rw [own] at same
    subst same
    exact ⟨job, time, found, held, stamped, early⟩
  · rintro ⟨job, time, found, held, stamped, early⟩
    exact ⟨job, ⟨Ledger.mem_records_iff.2 ⟨id, found⟩, held, time, stamped, early⟩,
      (storable.jobs id job found).1.symm⟩

namespace Board

variable {now : Instant} {start board next : Board} {event : Event} {log : Log} {id : Uuid}
  {job : Job}

/-- A job that is assigned after a step was assigned in it, or was so before, with the same record.
-/
theorem Change.held (change : Change now board event next) (found : next.jobs.get? id = some job)
    (held : job.status = .assigned) :
    job.assignedAt = some now ∨ board.jobs.get? id = some job := by
  by_cases about : event.job? = some id
  · cases change with
    | submitted accepted =>
      cases about
      rw [Ledger.get?_put, if_pos rfl] at found
      cases found
      cases held
    | registered accepted unknown => cases about
    | refreshed accepted known => cases about
    | measured amount known => cases about
    | bound first chosen there waiting known idle =>
      cases about
      rw [Ledger.get?_update_self _ there] at found
      cases found
      exact .inl rfl
    | completed there _ written =>
      cases about
      rw [Ledger.get?_update_self _ there] at found
      cases found
      cases held
    | @failed _ old retries reason there _ _ =>
      cases about
      rw [Ledger.get?_update_self _ there] at found
      cases found
      exact absurd held (old.status_failed_ne_assigned retries reason now)
  · exact .inr ((change.get?_job_of_ne about).symm.trans found)

/-- So it is after a chain of steps. -/
theorem History.held (history : History start log board) (found : board.jobs.get? id = some job)
    (held : job.status = .assigned) :
    (∃ entry ∈ log, job.assignedAt = some entry.1) ∨ start.jobs.get? id = some job := by
  induction history generalizing job with
  | start => exact .inr found
  | step before change ih =>
    rcases change.held found held with assigned | there
    · exact .inl ⟨_, List.mem_append_right _ (List.mem_singleton_self _), assigned⟩
    · rcases ih there held with ⟨entry, member, stamped⟩ | began
      · exact .inl ⟨entry, List.mem_append_left _ member, stamped⟩
      · exact .inr began

/-- An assigned job that is not worn can fail, and is not assigned afterwards. -/
theorem fail_of_assigned (reason : String) (now : Instant) (found : board.jobs.get? id = some job)
    (held : job.status = .assigned) (sound : ¬ job.IsWorn) : ∃ outcome after,
      board.fail id reason now = .ok (outcome, after)
        ∧ (∀ other, other ≠ id → after.jobs.get? other = board.jobs.get? other)
        ∧ ∀ failed, after.jobs.get? id = some failed → failed.status ≠ .assigned := by
  obtain ⟨retries, counted⟩ :=
    Option.ne_none_iff_exists'.1 (mt Job.nextRetries?_eq_none_iff.1 sound)
  have taken : board.jobs.fail id reason now = .ok ((job.failed retries reason now).1,
      board.jobs.update id fun _ => (job.failed retries reason now).2) :=
    JobLedger.fail_eq_ok.2 ⟨job, retries, found, held, counted, rfl, rfl⟩
  have there := Setback.lift_eq_ok.2 (JobLedger.find_eq_ok.2 found)
  refine ⟨_, _, bind_eq_ok.2 ⟨job, there, bind_eq_ok.2 ⟨_, taken, rfl⟩⟩, ?_, ?_⟩
  · intro other apart
    exact Ledger.get?_update_of_ne _ apart
  · intro failed there
    have same := (Ledger.get?_update_self _ found).symm.trans there
    cases same
    exact job.status_failed_ne_assigned retries reason now

theorem fail_of_worn (reason : String) (now : Instant) (found : board.jobs.get? id = some job)
    (held : job.status = .assigned) (worn : job.IsWorn) :
    board.fail id reason now = .error (.broken .counterFull) := by
  have there := Setback.lift_eq_ok.2 (JobLedger.find_eq_ok.2 found)
  have breaks : board.jobs.fail id reason now = .error (.broken .counterFull) :=
    bind_eq_error.2 (.inr ⟨job, there, bind_eq_error.2 (.inl (job.fail_of_worn held worn ..))⟩)
  exact bind_eq_error.2 (.inr ⟨job, there, bind_eq_error.2 (.inl breaks)⟩)

section Several

variable (reason : String) (now : Instant) {ids : List Uuid}

/-- Distinct assigned jobs of which none is worn can fail together, and then none of them is
assigned; the others that are assigned were so before. -/
theorem failAll_of_assigned (distinct : ids.Nodup) (assigned : ∀ id ∈ ids, ∃ job,
      board.jobs.get? id = some job ∧ job.status = .assigned ∧ ¬ job.IsWorn) :
    ∃ outcomes after, board.failAll reason now ids = .ok (outcomes, after)
      ∧ ∀ id job, after.jobs.get? id = some job → job.status = .assigned →
        id ∉ ids ∧ board.jobs.get? id = some job := by
  induction ids generalizing board with
  | nil => exact ⟨[], board, rfl, fun id job found _ => ⟨List.not_mem_nil, found⟩⟩
  | cons id ids ih =>
    obtain ⟨absent, rest⟩ := List.nodup_cons.1 distinct
    obtain ⟨job, found, held, sound⟩ := assigned id List.mem_cons_self
    obtain ⟨outcome, middle, failed, others, own⟩ := fail_of_assigned reason now found held sound
    have apart (other : Uuid) (member : other ∈ ids) : other ≠ id := fun same =>
      absent (same ▸ member)
    obtain ⟨outcomes, after, failedRest, left⟩ := ih rest fun other member => by
      rw [others other (apart other member)]
      exact assigned other (List.mem_cons_of_mem _ member)
    refine ⟨(id, outcome) :: outcomes, after,
      bind_eq_ok.2 ⟨_, failed, bind_eq_ok.2 ⟨_, failedRest, rfl⟩⟩, ?_⟩
    intro other record lookup still
    obtain ⟨unlisted, there⟩ := left other record lookup still
    have different : other ≠ id := by
      intro same
      subst same
      exact own record there still
    refine ⟨fun member => ?_, (others other different).symm.trans there⟩
    rcases List.mem_cons.1 member with same | inside
    · exact different same
    · exact unlisted inside

/-- One worn job among distinct assigned jobs is enough for none of them to fail. -/
theorem failAll_of_worn (distinct : ids.Nodup)
    (assigned : ∀ id ∈ ids, ∃ job, board.jobs.get? id = some job ∧ job.status = .assigned)
    (worn : ∃ id ∈ ids, ∃ job, board.jobs.get? id = some job ∧ job.IsWorn) :
    board.failAll reason now ids = .error (.broken .counterFull) := by
  induction ids generalizing board with
  | nil =>
    obtain ⟨_, member, _⟩ := worn
    cases member
  | cons id ids ih =>
    obtain ⟨absent, rest⟩ := List.nodup_cons.1 distinct
    obtain ⟨job, found, held⟩ := assigned id List.mem_cons_self
    by_cases first : job.IsWorn
    · exact bind_eq_error.2 (.inl (fail_of_worn reason now found held first))
    · obtain ⟨outcome, middle, failed, others, _⟩ := fail_of_assigned reason now found held first
      have apart (other : Uuid) (member : other ∈ ids) : middle.jobs.get? other =
          board.jobs.get? other := others other fun same => absent (same ▸ member)
      have later : middle.failAll reason now ids = .error (.broken .counterFull) := by
        refine ih rest (fun other member => ?_) ?_
        · rw [apart other member]
          exact assigned other (List.mem_cons_of_mem _ member)
        · obtain ⟨other, member, record, there, full⟩ := worn
          rcases List.mem_cons.1 member with same | inside
          · subst same
            cases found.symm.trans there
            exact absurd full first
          · exact ⟨other, inside, record, (apart other inside).trans there, full⟩
      exact bind_eq_error.2 (.inr ⟨_, failed, bind_eq_error.2 (.inl later)⟩)

end Several

/-- A worn job has been assigned since before the time. -/
def WornSince (board : Board) (cutoff : Instant) : Prop :=
  ∃ id job time, board.jobs.get? id = some job ∧ job.status = .assigned
    ∧ job.assignedAt = some time ∧ time.before cutoff = true ∧ job.IsWorn

theorem not_wornSince {cutoff : Instant} (unworn : ∀ job ∈ board.jobs.records, ¬ job.IsWorn) :
    ¬ board.WornSince cutoff := by
  rintro ⟨id, job, _, found, _, _, _, worn⟩
  exact unworn job (Ledger.mem_records_iff.2 ⟨id, found⟩) worn

namespace Storable

variable (storable : board.Storable) (reason : String) (now : Instant) {cutoff : Instant}

include storable

/-- All jobs assigned since before a time can fail together if none of them is worn, and none of
them is left. -/
theorem failAll_assignedBefore (sound : ¬ board.WornSince cutoff) : ∃ outcomes after,
    board.failAll reason now (board.jobs.assignedBefore cutoff) = .ok (outcomes, after)
      ∧ ∀ id job time, after.jobs.get? id = some job → job.status = .assigned →
        job.assignedAt = some time → time.before cutoff = false := by
  obtain ⟨outcomes, after, failed, left⟩ := failAll_of_assigned reason now
    (storable.nodup_assignedBefore cutoff) fun id member => by
      obtain ⟨job, time, found, held, stamped, early⟩ := storable.mem_assignedBefore.1 member
      exact ⟨job, found, held, fun worn => sound ⟨id, job, time, found, held, stamped, early, worn⟩⟩
  refine ⟨outcomes, after, failed, ?_⟩
  intro id job time found held stamped
  obtain ⟨unlisted, there⟩ := left id job found held
  rw [← Bool.not_eq_true]
  exact fun early =>
    unlisted (storable.mem_assignedBefore.2 ⟨job, time, there, held, stamped, early⟩)

theorem failAll_assignedBefore_of_worn (worn : board.WornSince cutoff) :
    board.failAll reason now (board.jobs.assignedBefore cutoff) =
      .error (.broken .counterFull) := by
  refine failAll_of_worn reason now (storable.nodup_assignedBefore cutoff) (fun id member => ?_) ?_
  · obtain ⟨job, _, found, held, _⟩ := storable.mem_assignedBefore.1 member
    exact ⟨job, found, held⟩
  · obtain ⟨id, job, time, found, held, stamped, early, full⟩ := worn
    exact ⟨id, storable.mem_assignedBefore.2 ⟨job, time, found, held, stamped, early⟩, job, found,
      full⟩

end Storable

end Board

end JobDispatch
