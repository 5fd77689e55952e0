import JobDispatch.Proofs.Board.Draining
import JobDispatch.Proofs.Desk.AnyDocument
import JobDispatch.Proofs.Desk.Reclaim
set_option autoImplicit false

namespace JobDispatch

open Time

namespace Desk

/-- No save fails in attempts one after another. -/
def SavesSucceed (moment : Moment) (desk : Desk) : Prop :=
  ∀ passes content,
    ((desk.afterPasses moment passes).disk.save content (moment.mishaps passes)).2 = .ok ()

variable {desk : Desk} {moment : Moment} {pairs : List (Uuid × String)} {staged : Board}

theorem SavesSucceed.later (saves : desk.SavesSucceed moment) :
    (desk.assign moment).2.SavesSucceed (moment.afterSaves 1) := by
  intro passes content
  rw [afterPasses_shift]
  simp only [Moment.afterSaves, Nat.add_comm 1]
  exact saves (passes + 1) content

/-- So it is where nothing stands in the way of a save and no call fails. -/
theorem savesSucceed_calm (clear : desk.disk.IsClear) (now : Instant) :
    desk.SavesSucceed (.calm now) := by
  have stays (passes : Nat) : (desk.afterPasses (.calm now) passes).disk.IsClear := by
    induction passes with
    | zero => exact clear
    | succ passes ih => exact Operation.clear_perform ih .assign _
  intro passes content
  obtain ⟨reachable, document, draft⟩ := stays passes
  exact congrArg Prod.snd (Disk.save_none content reachable document draft)

/-- An attempt that brings a job and an engine together goes through when its save does. -/
theorem assign_eq_of_saved {outcome : AssignmentOutcome}
    (attempt : desk.board.assignNext desk.settings.pairing moment.now moment.now =
      (.ok outcome, staged)) (assigned : outcome.isAssigned = true)
    (saved : (desk.disk.save staged.documentBytes (moment.mishaps 0)).2 = .ok ()) :
    desk.assign moment = (.ok outcome, { desk with
      board := staged, disk := (desk.disk.save staged.documentBytes (moment.mishaps 0)).1 }) := by
  have saving : desk.disk.save staged.documentBytes (moment.mishaps 0) =
    ((desk.disk.save staged.documentBytes (moment.mishaps 0)).1, .ok ()) := Prod.ext rfl saved
  simp only [assign, attempt, assigned, if_true, commit]
  rw [saving]

/-- The attempts that the board allows go through at the desk, under any limit that is not too low
for them. -/
theorem assignUpTo_of_drains {rule : Pairing} {now : Instant} {board : Board}
    (drains : Board.Drains rule now board pairs staged) (keyed : board.Keyed)
    (saves : desk.SavesSucceed moment) (start : desk.board = board)
    (config : desk.settings.pairing = rule) (time : moment.now = now) :
    ∃ after, after.board = staged ∧ after.settings = desk.settings
      ∧ ∀ limit, pairs.length ≤ limit → desk.assignUpTo limit moment = (.ok pairs, after) := by
  induction drains generalizing desk moment with
  | done exhausted =>
    subst start config time
    obtain ⟨outcome, nothing, attempt⟩ := keyed.assignNext_of_exhausted exhausted
    refine ⟨desk, rfl, rfl, fun limit _ => ?_⟩
    cases limit with
    | zero => rfl
    | succ limit =>
      have none : outcome.pair? = none := by simpa [AssignmentOutcome.isAssigned] using nothing
      simp only [assignUpTo, assign_eq_of_idle attempt nothing, none]
  | @step board final job engine pairs first chosen rest ih =>
    subst start config time
    have went := assign_eq_of_saved (keyed.assignNext_eq_paired first chosen moment.now) rfl
      (saves 0 _)
    have later := saves.later
    rw [went] at later
    obtain ⟨after, reached, same, others⟩ := ih (Board.keyed_paired keyed ..) later rfl rfl rfl
    refine ⟨after, reached, same, fun limit enough => ?_⟩
    obtain ⟨more, rfl⟩ := Nat.exists_eq_add_of_le' enough
    rw [List.length_cons, ← Nat.add_assoc]
    have rest := others (more + pairs.length) (Nat.le_add_left ..)
    simp only [assignUpTo, went, AssignmentOutcome.pair?, rest]

end Desk

namespace Session

/-- In every state of a run, whatever document it began with, assigning all comes to an end as long
as saves succeed. It brings together as many pairs as there are jobs that wait, or engines that
could take one, whichever are fewer: the jobs from the oldest on, and different engines. The
attempts that are made are one for each pair and one that comes to nothing; another one would come
to nothing as well. All that is not in a pair is as it was. -/
theorem draining_complete {settings : Settings} {disk : Disk} {ids : IdSupply} {desk : Desk}
    (opened : Desk.start settings disk ids = .ok desk) (turns : List Turn) (moment : Moment)
    (saves : ((opening desk).run turns).desk.SavesSucceed moment) :
    let final := ((opening desk).run turns).desk
    let waiting := final.jobs.filter fun job => job.status = .pending
    let able := final.engines.filter fun engine =>
      engine.status = .idle ∧ engine.benchmarkTime.isSome = true
        ∧ (final.settings.pairing.timeout.all fun timeout =>
          engine.isAlive moment.now timeout) = true
    ∃ pairs after, final.assignAll moment = (.ok pairs, after)
      ∧ (∀ limit, pairs.length ≤ limit → final.assignUpTo limit moment = (.ok pairs, after))
      ∧ (∀ index (inside : index < pairs.length), (final.pass moment index).1 =
        .ok (.assigned pairs[index].1 pairs[index].2))
      ∧ (∃ outcome, outcome.isAssigned = false
        ∧ final.pass moment pairs.length = (.ok outcome, after)
        ∧ ∀ mishaps, after.assign ⟨moment.now, mishaps⟩ = (.ok outcome, after))
      ∧ pairs.length = min waiting.length able.length
      ∧ pairs.map Prod.fst = (waiting.take pairs.length).map Job.id
      ∧ (pairs.map Prod.snd).Nodup
      ∧ (∀ pair ∈ pairs, ∃ engine ∈ able, pair.2 = engine.id)
      ∧ (∀ pair ∈ pairs, ∃ job engine,
        final.board.jobs.get? pair.1 = some job
          ∧ after.board.jobs.get? pair.1 = some (job.assign pair.2 moment.now)
          ∧ final.board.engines.get? pair.2 = some engine
          ∧ after.board.engines.get? pair.2 = some (engine.bind pair.1))
      ∧ final.board.TouchesOnly pairs after.board := by
  intro final waiting able
  have keyed : final.board.Keyed :=
    (kept_run (Desk.kept_of_start opened) turns).1.storable.keyed
  have same : final.settings.pairing.candidates final.board.engines moment.now = able :=
    Pairing.candidates_eq_filter ..
  obtain ⟨pairs, staged, drains⟩ := keyed.exists_drains final.settings.pairing moment.now
  obtain ⟨after, reached, config, drained⟩ :=
    Desk.assignUpTo_of_drains drains keyed saves rfl rfl rfl
  have count := drains.length_pairs keyed
  have jobs := drains.waiting_eq_append keyed
  have engines := drains.candidates_perm keyed
  rw [same] at count engines
  subst reached
  obtain ⟨last, bound, _⟩ := Desk.assignUpTo_ok (drained _ (Nat.le_refl _))
  refine ⟨pairs, after, drained _ ?_, drained, bound, ?_, count, ?_, drains.nodup_engines keyed, ?_,
    drains.bound keyed, drains.touchesOnly⟩
  · rw [← JobLedger.length_waiting]
    exact count.trans_le (Nat.min_le_left ..)
  · obtain ⟨outcome, nothing, attempt⟩ :=
      (drains.keyed keyed).assignNext_of_exhausted drains.exhausted
    have idle (mishaps : Nat → Mishaps) :
        after.assign ⟨moment.now, mishaps⟩ = (.ok outcome, after) := by
      refine Desk.assign_eq_of_idle ?_ nothing
      rw [config]
      exact attempt
    refine ⟨outcome, nothing, ?_, idle⟩
    rw [Desk.pass, ← last]
    exact idle _
  · rw [List.map_take]
    refine (List.take_left' ?_).symm.trans (congrArg (List.take pairs.length) jobs.symm)
    exact List.length_map _
  · intro pair member
    have own := engines.mem_iff.2 (List.mem_append_left _ (List.mem_map_of_mem member))
    obtain ⟨engine, inside, named⟩ := List.mem_map.1 own
    exact ⟨engine, inside, named.symm⟩

/-- A run after which two jobs wait on the board on which little agrees, and one engine could take a
job. -/
def oneTooMany : List Turn := [.ask (.submit ⟨"in", "out", Binary64.zero false, 1⟩) .first]

theorem draining_complete_oneTooMany :
    Desk.start .standard Desk.tangled.disk Desk.tangled.ids = .ok .tangled
      ∧ ((opening .tangled).run oneTooMany).desk.SavesSucceed .first
      ∧ ∃ after, ((opening .tangled).run oneTooMany).desk.assignAll .first =
          (.ok [(Uuid.ofNat 14, "engine")], after)
        ∧ (after.board.jobs.get? (Uuid.ofNat 0)).map Job.status = some .pending
        ∧ ∃ outcome, outcome.isAssigned = false ∧ after.assign .first = (.ok outcome, after) := by
  have opened := Desk.start_tangled
  have clear : ((opening .tangled).run oneTooMany).desk.disk.IsClear :=
    ⟨by decide +kernel, by decide +kernel, by decide +kernel⟩
  have saves := Desk.savesSucceed_calm clear Moment.first.now
  have told : (((opening .tangled).run oneTooMany).desk.assignAll .first).1 =
      .ok [(Uuid.ofNat 14, "engine")] := by
    decide +kernel
  obtain ⟨pairs, after, drained, _, _, ⟨outcome, nothing, _, idle⟩, _, _, _, _, _, touched⟩ :=
    draining_complete opened oneTooMany .first saves
  have answered : (Except.ok pairs : Except Setback _) = .ok [(Uuid.ofNat 14, "engine")] :=
    (congrArg Prod.fst drained).symm.trans told
  cases answered
  have left : after.board.jobs.get? (Uuid.ofNat 0) =
      ((opening .tangled).run oneTooMany).desk.board.jobs.get? (Uuid.ofNat 0) :=
    touched.jobs.get?_eq fun _ _ _ => by decide
  refine ⟨opened, saves, after, drained, ?_, outcome, nothing, idle _⟩
  rw [left]
  decide +kernel

end Session

end JobDispatch
