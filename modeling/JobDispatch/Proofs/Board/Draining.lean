import JobDispatch.Proofs.Board.Footprint
set_option autoImplicit false

namespace JobDispatch

open Time

namespace Board

variable {rule : Pairing} {now : Instant} {board after : Board} {pairs : List (Uuid × String)}
  {job : Job} {engine : Engine}

/-- An attempt takes the first job from those that wait. -/
theorem Keyed.waiting_eq_cons (keyed : board.Keyed) (first : board.jobs.firstPending = some job)
    (name : String) (now : Instant) :
    board.jobs.waiting = job :: (board.paired job.id name now).jobs.waiting := by
  rw [JobLedger.firstPending_eq_head?] at first
  obtain ⟨rest, split⟩ := List.head?_eq_some_iff.1 first
  obtain ⟨front, back, records, earlier, waits, _⟩ := List.filter_eq_cons_iff.1 split
  obtain ⟨before, later⟩ := Ledger.filter_records_update_of_split keyed.jobs records
    (Job.assign name now) (fun job => job.status = .pending) waits rfl
  rw [List.filter_eq_nil_iff.2 earlier] at before later
  rw [JobLedger.waiting, before, JobLedger.waiting, paired, later]
  rfl

/-- It takes one engine from those that could take a job. -/
theorem Keyed.candidates_split (keyed : board.Keyed)
    (able : engine ∈ rule.candidates board.engines now) (id : Uuid) :
    ∃ front back, rule.candidates board.engines now = front ++ engine :: back
      ∧ rule.candidates (board.paired id engine.id now).engines now = front ++ back := by
  simp only [Pairing.candidates_eq_filter] at able ⊢
  obtain ⟨member, passes⟩ := List.mem_filter.1 able
  obtain ⟨front, back, split⟩ := List.append_of_mem member
  exact ⟨_, _, Ledger.filter_records_update_of_split keyed.engines split _ _ passes rfl⟩

/-- An attempt comes to nothing where no job waits or no engine could take one. -/
theorem Keyed.assignNext_of_exhausted (keyed : board.Keyed)
    (exhausted : board.jobs.waiting = [] ∨ rule.candidates board.engines now = []) :
    ∃ outcome, outcome.isAssigned = false
      ∧ board.assignNext rule now now = (.ok outcome, board) := by
  rcases keyed.assignNext_cases rule now now with
    ⟨_, idle⟩ | ⟨job, _, _, idle⟩ | ⟨job, engine, first, chosen, _⟩
  · exact ⟨_, rfl, idle⟩
  · exact ⟨_, rfl, idle⟩
  · rcases exhausted with none | none
    · rw [JobLedger.firstPending_eq_none_iff.2 none] at first
      cases first
    · rw [none, Pairing.choose_eq_none_iff.2 rfl] at chosen
      cases chosen

/-- Attempts that bring some pairs together, until no job waits or no engine could take one. -/
inductive Drains (rule : Pairing) (now : Instant) : Board → List (Uuid × String) → Board → Prop where
  | done {board : Board}
      (exhausted : board.jobs.waiting = [] ∨ rule.candidates board.engines now = []) :
    Drains rule now board [] board
  | step {board after : Board} {job : Job} {engine : Engine} {pairs : List (Uuid × String)}
      (first : board.jobs.firstPending = some job)
      (chosen : rule.choose job.jobSize (rule.candidates board.engines now) = some engine)
      (rest : Drains rule now (board.paired job.id engine.id now) pairs after) :
    Drains rule now board ((job.id, engine.id) :: pairs) after

/-- Such attempts come to an end, since each of them leaves one job less to wait. -/
theorem Keyed.exists_drains (keyed : board.Keyed) (rule : Pairing) (now : Instant) :
    ∃ pairs after, Drains rule now board pairs after := by
  induction count : board.jobs.waiting.length generalizing board with
  | zero => exact ⟨[], board, .done (.inl (List.length_eq_zero_iff.1 count))⟩
  | succ count ih =>
    rcases keyed.assignNext_cases rule now now with
      ⟨none, _⟩ | ⟨job, _, none, _⟩ | ⟨job, engine, first, chosen, _⟩
    · exact ⟨[], board, .done (.inl (JobLedger.firstPending_eq_none_iff.1 none))⟩
    · exact ⟨[], board, .done (.inr none)⟩
    · have fewer := keyed.waiting_eq_cons first engine.id now
      rw [fewer, List.length_cons] at count
      obtain ⟨pairs, after, rest⟩ := ih (keyed_paired keyed ..) (Nat.succ.inj count)
      exact ⟨_, after, .step first chosen rest⟩

namespace Drains

theorem keyed (drains : Drains rule now board pairs after) (keyed : board.Keyed) : after.Keyed := by
  induction drains with
  | done => exact keyed
  | step first chosen rest ih => exact ih (keyed_paired keyed ..)

/-- In the end no job waits, or no engine could take one. -/
theorem exhausted (drains : Drains rule now board pairs after) :
    after.jobs.waiting = [] ∨ rule.candidates after.engines now = [] := by
  induction drains with
  | done exhausted => exact exhausted
  | step first chosen rest ih => exact ih

theorem touchesOnly (drains : Drains rule now board pairs after) :
    board.TouchesOnly pairs after := by
  induction drains with
  | done => exact ⟨.refl .., .refl ..⟩
  | step first chosen rest ih => exact (touchesOnly_paired ..).append ih

/-- The jobs that waited are those of the pairs, in their order, and then those that wait still. -/
theorem waiting_eq_append (drains : Drains rule now board pairs after) (keyed : board.Keyed) :
    board.jobs.waiting.map Job.id = pairs.map Prod.fst ++ after.jobs.waiting.map Job.id := by
  induction drains with
  | done => rfl
  | @step board after job engine pairs first chosen rest ih =>
    rw [keyed.waiting_eq_cons first engine.id now, List.map_cons, ih (keyed_paired keyed ..)]
    rfl

/-- The engines that could take a job are those of the pairs and those that still could. -/
theorem candidates_perm (drains : Drains rule now board pairs after) (keyed : board.Keyed) :
    ((rule.candidates board.engines now).map Engine.id).Perm
      (pairs.map Prod.snd ++ (rule.candidates after.engines now).map Engine.id) := by
  induction drains with
  | done => exact .refl _
  | @step board after job engine pairs first chosen rest ih =>
    obtain ⟨front, back, before, later⟩ :=
      keyed.candidates_split (Pairing.mem_of_choose chosen) job.id
    have fewer := ih (keyed_paired keyed ..)
    rw [later] at fewer
    rw [before]
    exact (List.perm_middle.map Engine.id).trans (fewer.cons engine.id)

theorem length_pairs (drains : Drains rule now board pairs after) (keyed : board.Keyed) :
    pairs.length = min board.jobs.waiting.length (rule.candidates board.engines now).length := by
  have jobs := congrArg List.length (drains.waiting_eq_append keyed)
  have engines := (drains.candidates_perm keyed).length_eq
  simp only [List.length_append, List.length_map] at jobs engines
  rcases drains.exhausted with none | none
  · rw [none, List.length_nil] at jobs
    omega
  · rw [none, List.length_nil] at engines
    omega

theorem nodup_jobs (drains : Drains rule now board pairs after) (keyed : board.Keyed) :
    (pairs.map Prod.fst).Nodup := by
  have distinct : (board.jobs.waiting.map Job.id).Nodup :=
    keyed.nodup_jobs.sublist (List.filter_sublist.map Job.id)
  rw [drains.waiting_eq_append keyed] at distinct
  exact (List.nodup_append.1 distinct).1

theorem nodup_engines (drains : Drains rule now board pairs after) (keyed : board.Keyed) :
    (pairs.map Prod.snd).Nodup := by
  have distinct : ((rule.candidates board.engines now).map Engine.id).Nodup := by
    rw [Pairing.candidates_eq_filter]
    exact keyed.nodup_engines.sublist (List.filter_sublist.map Engine.id)
  exact (List.nodup_append.1 ((drains.candidates_perm keyed).nodup_iff.1 distinct)).1

/-- Each pair is bound in the end: its job is assigned to its engine, and the engine is busy with
the job. -/
theorem bound (drains : Drains rule now board pairs after) (keyed : board.Keyed) :
    ∀ pair ∈ pairs, ∃ job engine, board.jobs.get? pair.1 = some job
      ∧ after.jobs.get? pair.1 = some (job.assign pair.2 now)
      ∧ board.engines.get? pair.2 = some engine
      ∧ after.engines.get? pair.2 = some (engine.bind pair.1) := by
  have jobs := drains.nodup_jobs keyed
  have engines := drains.nodup_engines keyed
  induction drains with
  | done => simp
  | @step board after job engine pairs first chosen rest ih =>
    rw [List.map_cons, List.nodup_cons] at jobs engines
    have fit := keyed.fit first chosen
    have touched := rest.touchesOnly
    intro pair member
    rcases List.mem_cons.1 member with same | inside
    · -- the attempts that follow touch neither the job nor the engine
      subst same
      refine ⟨job, engine, fit.found, ?_, fit.known, ?_⟩
      · rw [touched.jobs.get?_eq fun _ _ _ => jobs.1]
        exact Ledger.get?_update_self _ fit.found
      · rw [touched.engines.get?_eq fun _ _ _ => engines.1]
        exact Ledger.get?_update_self _ fit.known
    · obtain ⟨other, holder, found, given, known, held⟩ :=
        ih (keyed_paired keyed ..) jobs.2 engines.2 pair inside
      have jobInside : pair.1 ∈ pairs.map Prod.fst := List.mem_map_of_mem inside
      have engineInside : pair.2 ∈ pairs.map Prod.snd := List.mem_map_of_mem inside
      refine ⟨other, holder, ?_, given, ?_, held⟩
      · exact (Ledger.get?_update_of_ne _ (ne_of_mem_of_not_mem jobInside jobs.1)).symm.trans found
      · exact (Ledger.get?_update_of_ne _ (ne_of_mem_of_not_mem engineInside engines.1)).symm.trans
          known

end Drains

end Board

end JobDispatch
