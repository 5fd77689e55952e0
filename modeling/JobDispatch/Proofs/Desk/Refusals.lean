import JobDispatch.Proofs.Board.Attempt
import JobDispatch.Proofs.Board.Holding
import JobDispatch.Proofs.Desk.AnyDocument
import JobDispatch.Proofs.Desk.Batch
import JobDispatch.Proofs.Desk.Saving
import JobDispatch.Proofs.InPlace
set_option autoImplicit false

/- What nobody asked for is refused only since it cannot be saved: an attempt to assign, or a
reclaim, looks up no record that is not there and takes none for what it is not. A reclaim that
meets a worn job breaks down over it. -/
namespace JobDispatch

open Time

/-- Where every record is filed under its own id an attempt is not refused, and a job that it makes
assigned is held by its engine. -/
theorem Board.Keyed.assignNext_ok {board : Board} (keyed : board.Keyed) (rule : Pairing)
    (judged now : Instant) : ∃ outcome after,
      board.assignNext rule judged now = (.ok outcome, after)
      ∧ ∀ id job, after.jobs.get? id = some job → job.status = .assigned →
        board.jobs.get? id ≠ some job →
        ∃ name, job.assignedEngine = some name ∧ after.engines.Holds name id := by
  rcases keyed.assignNext_cases rule judged now with
    ⟨_, attempt⟩ | ⟨job, _, _, attempt⟩ | ⟨job, engine, first, chosen, attempt⟩
  · exact ⟨_, _, attempt, fun id job found _ new => absurd found new⟩
  · exact ⟨_, _, attempt, fun id job found _ new => absurd found new⟩
  · refine ⟨_, _, attempt, fun id found lookup _ new => ?_⟩
    have fit := keyed.fit first chosen
    rcases Ledger.get?_update_eq_some.1 lookup with ⟨old, same, _, changed⟩ | ⟨_, there⟩
    · subst same changed
      exact ⟨engine.id, rfl, _, Ledger.get?_update_self _ fit.known, rfl, rfl⟩
    · exact absurd there new

namespace Desk

variable {desk after : Desk} {moment : Moment} {setback : Setback}

/-- An attempt stops short only since its save failed. -/
theorem Kept.saveFails_of_assign (kept : desk.Kept)
    (stopped : desk.assign moment = (.error setback, after)) :
    ∃ detail, setback = .refused (.storage detail)
      ∧ desk.SaveFails (moment.mishaps 0) (.storage detail) := by
  have performed : Operation.assign.perform moment desk = (.error setback, after) :=
    Operation.answering_eq_error.2 stopped
  rcases Operation.unchanged_or_saveFails performed with impossible | ⟨refusal, same, failed⟩
  · obtain ⟨outcome, staged, attempt, _⟩ :=
      kept.storable.keyed.assignNext_ok desk.settings.pairing moment.now moment.now
    simp only [Operation.transition, attempt] at impossible
    cases impossible
  · obtain ⟨detail, stored⟩ := failed.storage
    subst stored
    exact ⟨detail, same, failed⟩

/-- Assigning all stops short only since the save of one of its attempts failed. -/
theorem Kept.saveFails_of_assignAll (kept : desk.Kept)
    (stopped : desk.assignAll moment = (.error setback, after)) :
    ∃ detail, setback = .refused (.storage detail) ∧ ∃ passes,
      (desk.afterPasses moment passes).SaveFails (moment.mishaps passes) (.storage detail) := by
  obtain ⟨passes, _, _, failed⟩ := assignUpTo_error stopped
  obtain ⟨detail, same, unsaved⟩ := (kept.afterPasses moment passes).saveFails_of_assign failed
  exact ⟨detail, same, passes, unsaved⟩

/-- A reclaim breaks down over its cutoff or over a worn job, and changes nothing then; else it
stops short only since its save failed. -/
theorem Kept.reclaim_error (kept : desk.Kept)
    (stopped : desk.reclaim moment = (.error setback, after)) :
    (setback = .broken .outOfCalendar ∧ after = desk ∧ LeavesCalendar desk.settings moment.now)
      ∨ (setback = .broken .counterFull ∧ after = desk ∧ desk.WornTimedOut moment.now)
      ∨ ∃ detail, setback = .refused (.storage detail)
        ∧ desk.SaveFails (moment.mishaps 0) (.storage detail) := by
  by_cases leaves : LeavesCalendar desk.settings moment.now
  · cases (reclaim_of_leavesCalendar leaves).symm.trans stopped
    exact .inl ⟨rfl, rfl, leaves⟩
  · by_cases worn : desk.WornTimedOut moment.now
    · cases (kept.reclaim_of_worn worn).symm.trans stopped
      exact .inr (.inl ⟨rfl, rfl, worn⟩)
    · have performed : Operation.reclaim.perform moment desk = (.error setback, after) :=
        Operation.answering_eq_error.2 stopped
      rcases Operation.unchanged_or_saveFails performed with unchanged | ⟨refusal, same, failed⟩
      · -- at the board nothing stops the reclaim
        simp only [Operation.transition] at unchanged
        split at unchanged
        · cases unchanged
        · rename_i timeout on
          split at unchanged
          · rename_i early
            exact absurd ⟨timeout, on, early⟩ leaves
          · rename_i cutoff back
            obtain ⟨outcomes, staged, failed, _⟩ := kept.storable.failAll_assignedBefore
              timeoutReason moment.now fun held => worn ⟨timeout, cutoff, on, back, held⟩
            simp only [failed] at unchanged
            cases unchanged
      · obtain ⟨detail, stored⟩ := failed.storage
        subst stored
        exact .inr (.inr ⟨detail, same, failed⟩)

theorem Kept.reclaim_outOfCalendar_iff (kept : desk.Kept) :
    (desk.reclaim moment).1 = .error (.broken .outOfCalendar) ↔
      LeavesCalendar desk.settings moment.now := by
  constructor
  · intro broken
    have stopped : desk.reclaim moment =
        (.error (.broken .outOfCalendar), (desk.reclaim moment).2) := Prod.ext broken rfl
    rcases kept.reclaim_error stopped with ⟨_, _, leaves⟩ | ⟨impossible, _⟩ | ⟨_, impossible, _⟩
    · exact leaves
    · cases impossible
    · cases impossible
  · intro leaves
    rw [reclaim_of_leavesCalendar leaves]

theorem Kept.reclaim_counterFull_iff (kept : desk.Kept) :
    (desk.reclaim moment).1 = .error (.broken .counterFull) ↔ desk.WornTimedOut moment.now := by
  constructor
  · intro broken
    have stopped : desk.reclaim moment =
        (.error (.broken .counterFull), (desk.reclaim moment).2) := Prod.ext broken rfl
    rcases kept.reclaim_error stopped with ⟨impossible, _⟩ | ⟨_, _, worn⟩ | ⟨_, impossible, _⟩
    · cases impossible
    · exact worn
    · cases impossible
  · intro worn
    rw [kept.reclaim_of_worn worn]

end Desk

namespace Session

/-- In every state of a run, whatever document it began with and however its bindings disagree, an
attempt to assign, assigning all, and a reclaim whose cutoff lies in the calendar are refused only
since a save failed; but a reclaim breaks down, with nothing changed, exactly when a worn job has
timed out. On every board whose records are filed under their own ids an attempt is not refused at
all, and leaves no job with an engine that does not hold it. Every other change of jobs or engines,
carried out in place, leaves them as they are when it meets a setback. -/
theorem passes_refused_on_save_only {settings : Settings} {disk : Disk} {ids : IdSupply}
    {desk : Desk} (opened : Desk.start settings disk ids = .ok desk) (turns : List Turn)
    (moment : Moment) :
    let final := ((opening desk).run turns).desk
    (∀ setback after, final.assign moment = (.error setback, after) →
        ∃ detail, setback = .refused (.storage detail)
          ∧ final.SaveFails (moment.mishaps 0) (.storage detail))
      ∧ (∀ setback after, final.assignAll moment = (.error setback, after) →
        ∃ detail, setback = .refused (.storage detail) ∧ ∃ passes,
          (final.afterPasses moment passes).SaveFails (moment.mishaps passes) (.storage detail))
      ∧ ((final.reclaim moment).1 = .error (.broken .counterFull) ↔ final.WornTimedOut moment.now)
      ∧ (final.WornTimedOut moment.now → (final.reclaim moment).2 = final)
      ∧ (¬ Desk.LeavesCalendar final.settings moment.now → ¬ final.WornTimedOut moment.now →
        ∀ setback after, final.reclaim moment = (.error setback, after) →
          ∃ detail, setback = .refused (.storage detail)
            ∧ final.SaveFails (moment.mishaps 0) (.storage detail))
      ∧ (∀ board : Board, board.Keyed → ∀ rule judged now, ∃ outcome after,
        board.assignNext rule judged now = (.ok outcome, after)
          ∧ ∀ id job, after.jobs.get? id = some job → job.status = .assigned →
            board.jobs.get? id ≠ some job →
            ∃ name, job.assignedEngine = some name ∧ after.engines.Holds name id)
      ∧ (∀ (α : Type) (edit : JobEdit α) (now : Instant),
        (edit.inPlace now).CarriesOut (edit.change now)
          ∧ ∀ jobs setback after, (edit.inPlace now).run.run jobs = (.error setback, after) →
            after = jobs)
      ∧ ∀ (edit : EngineEdit) (now : Instant),
        (edit.inPlace now).CarriesOut (edit.change now)
          ∧ ∀ engines setback after,
            (edit.inPlace now).run.run engines = (.error setback, after) → after = engines := by
  intro final
  have kept : final.Kept := (kept_run (Desk.kept_of_start opened) turns).1
  refine ⟨fun _ _ => kept.saveFails_of_assign, fun _ _ => kept.saveFails_of_assignAll,
    kept.reclaim_counterFull_iff, ?_, ?_, ?_, ?_, ?_⟩
  · intro worn
    rw [kept.reclaim_of_worn worn]
  · intro inside sound setback after stopped
    rcases kept.reclaim_error stopped with ⟨_, _, leaves⟩ | ⟨_, _, worn⟩ | unsaved
    · exact absurd leaves inside
    · exact absurd worn sound
    · exact unsaved
  · intro board keyed rule judged now
    exact keyed.assignNext_ok rule judged now
  · intro α edit now
    have carries := edit.inPlace_carriesOut now
    exact ⟨carries, fun _ _ _ => carries.eq_of_error⟩
  · intro edit now
    have carries := edit.inPlace_carriesOut now
    exact ⟨carries, fun _ _ _ => carries.eq_of_error⟩

/-- A time at which no draft can take the place of the document. -/
def stuck (now : Instant) : Moment := ⟨now, fun _ => { rename := true }⟩

theorem passes_refused_on_save_only_stuck :
    Desk.start .standard Desk.tangled.disk Desk.tangled.ids = .ok .tangled
      ∧ (∃ detail after, Desk.tangled.assign (stuck Moment.first.now) =
          (.error (.refused (.storage detail)), after)
        ∧ Desk.tangled.SaveFails { rename := true } (.storage detail))
      ∧ ¬ Desk.LeavesCalendar Desk.tangled.settings anHourLater.now
      ∧ ¬ Desk.tangled.WornTimedOut anHourLater.now
      ∧ ∃ detail after, Desk.tangled.reclaim (stuck anHourLater.now) =
          (.error (.refused (.storage detail)), after)
        ∧ Desk.tangled.SaveFails { rename := true } (.storage detail) := by
  have opened := Desk.start_tangled
  have inside : ¬ Desk.LeavesCalendar Desk.tangled.settings anHourLater.now := by
    rintro ⟨timeout, on, early⟩
    have set : Desk.tangled.settings.jobTimeout = some 1800000000000 := by decide +kernel
    cases set.symm.trans on
    have back : (anHourLater.now.minus? 1800000000000).isSome = true := by decide +kernel
    simp [early] at back
  have sound : ¬ Desk.tangled.WornTimedOut anHourLater.now :=
    Desk.not_wornTimedOut (by decide +kernel) anHourLater.now
  have unassigned : (Desk.tangled.assign (stuck Moment.first.now)).1.isOk = false := by
    decide +kernel
  have unclaimed : (Desk.tangled.reclaim (stuck anHourLater.now)).1.isOk = false := by
    decide +kernel
  refine ⟨opened, ?_, inside, sound, ?_⟩
  · obtain ⟨stops, _⟩ := passes_refused_on_save_only opened [] (stuck Moment.first.now)
    cases tried : Desk.tangled.assign (stuck Moment.first.now) with
    | mk result after =>
      rw [tried] at unassigned
      cases result with
      | ok outcome => cases unassigned
      | error setback =>
        obtain ⟨detail, same, failed⟩ := stops setback after tried
        subst same
        exact ⟨detail, after, rfl, failed⟩
  · obtain ⟨_, _, _, _, stops, _⟩ :=
      passes_refused_on_save_only opened [] (stuck anHourLater.now)
    cases tried : Desk.tangled.reclaim (stuck anHourLater.now) with
    | mk result after =>
      rw [tried] at unclaimed
      cases result with
      | ok outcomes => cases unclaimed
      | error setback =>
        obtain ⟨detail, same, failed⟩ := stops inside sound setback after tried
        subst same
        exact ⟨detail, after, rfl, failed⟩

end Session

/-- A board whose one job is assigned, with its retries at the end of the counter and of their
bound. -/
def Board.worn : Board :=
  let time := Moment.first.now
  { jobs := ⟨[(Uuid.ofNat 11,
      { id := Uuid.ofNat 11
        sourceUrl := "in"
        targetCodec := "out"
        jobSize := Binary64.zero false
        status := .assigned
        assignedEngine := some "engine"
        lastEngine := some "engine"
        outputUrl := none
        retries := 4294967295
        maxRetries := 4294967295
        errorMessage := none
        createdAt := time
        updatedAt := time
        assignedAt := some time })], by decide⟩
    engines := ⟨[("engine", ⟨"engine", .busy, Binary64.zero false, time,
      some (Binary64.zero false), some (Uuid.ofNat 11)⟩)], by decide⟩ }

/-- A desk that was opened over the document of that board, and gives jobs a second. -/
def Desk.worn : Desk := .onFile { Settings.standard with jobTimeoutMs := some 1000 } .worn

namespace Session

/-- A reclaim can stop short though nothing stands in the way of a save: here the one job that has
timed out is worn. -/
theorem reclaim_broken_worn :
    Desk.start Desk.worn.settings Desk.worn.disk Desk.worn.ids = .ok .worn
      ∧ ¬ Desk.LeavesCalendar Desk.worn.settings anHourLater.now
      ∧ Desk.worn.disk.IsClear ∧ (∀ save, anHourLater.mishaps save = .none)
      ∧ Desk.worn.reclaim anHourLater = (.error (.broken .counterFull), .worn) := by
  have opened : Desk.start Desk.worn.settings Desk.worn.disk Desk.worn.ids = .ok .worn :=
    Desk.start_onFile Desk.worn.settings (by decide +kernel)
  have on : Desk.worn.settings.jobTimeout = some 1000000000 := by decide +kernel
  have back : anHourLater.now.minus? 1000000000 = some ⟨3599, 0, by decide, by decide⟩ := by
    decide +kernel
  have expired : Desk.worn.WornTimedOut anHourLater.now :=
    ⟨_, _, on, back, Uuid.ofNat 11, _, _, rfl, rfl, rfl, rfl, rfl⟩
  refine ⟨opened, ?_, ⟨rfl, rfl, rfl⟩, fun _ => rfl,
    (Desk.kept_of_start opened).reclaim_of_worn expired⟩
  rintro ⟨timeout, found, early⟩
  cases on.symm.trans found
  cases back.symm.trans early

end Session

end JobDispatch
