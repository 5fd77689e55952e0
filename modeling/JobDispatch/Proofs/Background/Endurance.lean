import JobDispatch.CommandLine.Command
import JobDispatch.Proofs.Background.Sweep
import JobDispatch.Proofs.Desk.Batch
import JobDispatch.Proofs.Desk.Refusals
set_option autoImplicit false

/- What the sweeper withstands. A reclaim comes to its end unless the job timeout reaches back
beyond the beginning of the calendar, or a worn job has timed out: then the sweeper breaks down, and
nothing is reclaimed any more. -/
namespace JobDispatch

open Time

namespace Desk

variable {desk : Desk} {moment : Moment}

/-- With a timeout that never ends nothing is reclaimed. -/
theorem reclaim_of_endless (endless : desk.settings.jobTimeout = none) :
    desk.reclaim moment = (.ok [], desk) := by
  simp only [reclaim, endless]

/-- With an engine timeout that never ends no engine is stale. -/
theorem staleEngines_of_endless {ms : UInt64} (set : desk.settings.engineTimeoutMs = some ms)
    (long : 2 ^ 63 ≤ ms.toNat) (now : Instant) : desk.staleEngines now = [] := by
  have endless : longestSpan < nanosOfMs ms := by
    simp only [longestSpan, nanosOfMs]
    omega
  simp [staleEngines, Settings.pairing, set, EnginePool.stale, Engine.isAlive, endless]

theorem settings_afterCalls (now : Instant) (calls : List (Operation × (Nat → Mishaps)))
    (desk : Desk) : (desk.afterCalls now calls).settings = desk.settings := by
  induction calls generalizing desk with
  | nil => rfl
  | cons call calls ih =>
    exact (ih _).trans (Operation.continues_perform call.1 ⟨now, call.2⟩ desk).settings

theorem Kept.afterCalls (kept : desk.Kept) (now : Instant)
    (calls : List (Operation × (Nat → Mishaps))) : (desk.afterCalls now calls).Kept := by
  induction calls generalizing desk with
  | nil => exact kept
  | cons call calls ih => exact ih (kept.perform call.1 ⟨now, call.2⟩).1

theorem Kept.of_alike {before after : Desk} (kept : before.Kept) (alike : after.Alike before) :
    after.Kept := by
  obtain ⟨_, board, disk, _⟩ := alike
  constructor
  · rw [board]
    exact kept.storable
  · rw [board, disk]
    exact kept.loads

end Desk

namespace Background

def Sweeper.isReady : Sweeper → Bool
  | working none => true
  | _ => false

theorem Sweeper.isReady_iff {sweeper : Sweeper} :
    sweeper.isReady = true ↔ sweeper = .working none := by
  rcases sweeper with _ | (_ | _) | _ <;> simp [isReady]

namespace Shift

variable {ρ : Type} {plan : Plan} {settings : Settings} {shift next : Shift ρ}

/-- What holds of a shift throughout: the settings stay, the document holds the board, visitors only
call, and the sweeper is in the queue exactly while it waits for its turn, and once. -/
structure Staffed (settings : Settings) (shift : Shift ρ) : Prop where
  settings : shift.desk.settings = settings
  kept : shift.desk.Kept
  callers : ∀ visit ∈ shift.visits, visit.IsCaller
  turn : shift.queue.count .sweeper = shift.sweeper.isReady.toNat

/-- A sweep would break down now, over its cutoff or over a worn job. -/
def SweepBreaks (settings : Settings) (plan : Plan) (shift : Shift ρ) : Prop :=
  let now := (plan.moment shift.clock (shift.turns + 1)).now
  Desk.LeavesCalendar settings now ∨ shift.desk.WornTimedOut now

theorem visits_wakeAssigner (shift : Shift ρ) : shift.wakeAssigner.visits = shift.visits := by
  simp only [wakeAssigner]
  split
  · split <;> rfl
  · rfl

/-- No turn brings in a visitor. -/
theorem visits_takeTurn (plan : Plan) (party : Party) (shift : Shift ρ) :
    (shift.takeTurn plan party).visits <:+ shift.visits := by
  simp only [takeTurn, visits_wakeAssigner]
  cases party with
  | assigner =>
    simp only [assignTurn]
    split
    · exact List.suffix_rfl
    · split
      · exact List.suffix_rfl
      · split <;> exact List.suffix_rfl
  | sweeper =>
    simp only [sweepTurn]
    split <;> exact List.suffix_rfl
  | visitor =>
    simp only [visitTurn]
    split
    · exact List.suffix_rfl
    · rename_i visit visits listed
      replace listed : shift.visits = visit :: visits := listed
      rw [listed]
      split
      · exact List.suffix_cons visit visits
      · split <;> exact List.suffix_cons visit visits

/-- A turn of the sweeper breaks it exactly when the sweep breaks down. -/
theorem sweeper_takeTurn (plan : Plan) (kept : shift.desk.Kept) :
    (SweepBreaks shift.desk.settings plan shift
        ∧ (shift.takeTurn plan .sweeper).sweeper = .broken)
      ∨ ¬ SweepBreaks shift.desk.settings plan shift
        ∧ ∃ alarm, (shift.takeTurn plan .sweeper).sweeper = .working (some alarm) := by
  simp only [takeTurn, (beside_wakeAssigner _).sweeper, sweepTurn]
  split
  · rename_i stopped
    rcases kept.reclaim_error stopped with ⟨_, _, leaves⟩ | ⟨_, _, worn⟩ | ⟨_, impossible, _⟩
    · exact .inl ⟨.inl leaves, rfl⟩
    · exact .inl ⟨.inr worn, rfl⟩
    · cases impossible
  · rename_i ends reclaimed
    refine .inr ⟨?_, _, rfl⟩
    rintro (leaves | worn)
    · cases (Desk.reclaim_of_leavesCalendar leaves).symm.trans reclaimed
      exact ends _ rfl
    · cases (kept.reclaim_of_worn worn).symm.trans reclaimed
      exact ends _ rfl

theorem turn_takeTurn_sweeper (plan : Plan) (shift : Shift ρ) :
    (shift.takeTurn plan .sweeper).queue.count .sweeper = shift.queue.count .sweeper := by
  simp only [takeTurn, (beside_wakeAssigner _).count_sweeper, sweepTurn]
  split <;> rfl

/-- The sweeper goes on, or breaks down for a reason; and it does not recover. -/
structure Endures (reason : Prop) (before after : Sweeper) : Prop where
  working : ∀ alarm, before = .working alarm → (∃ later, after = .working later)
    ∨ after = .broken ∧ reason
  broken : before = .broken → after = .broken

theorem Endures.refl (reason : Prop) (sweeper : Sweeper) : Endures reason sweeper sweeper :=
  ⟨fun alarm same => .inl ⟨alarm, same⟩, fun same => same⟩

/-- When time moves on, the sweeper may get its turn. -/
theorem Staffed.moveOn (staffed : Staffed settings shift) (nobody : shift.queue = [])
    (moved : shift.moveOn plan = some next) (reason : Prop) :
    Staffed settings next ∧ Endures reason shift.sweeper next.sweeper := by
  obtain ⟨due, called, _, permuted, equal⟩ := moveOn_eq_some moved
  have counted := permuted.count_eq .sweeper
  rw [count_sweeper_ringing] at counted
  have turn := staffed.turn
  rw [nobody] at turn
  rw [foldl_silence] at equal
  subst equal
  by_cases rung : Party.sweeper ∈ called
  · have some := List.count_pos_iff.2 rung
    refine ⟨⟨staffed.settings, staffed.kept, staffed.callers, ?_⟩, ?_⟩
    · simp only [if_pos rung, Sweeper.isReady]
      rw [counted] at some ⊢
      exact Nat.le_antisymm (Bool.toNat_le _) some
    · simp only [if_pos rung]
      refine ⟨fun _ _ => .inl ⟨none, rfl⟩, fun broken => ?_⟩
      -- a sweeper that has broken down has no alarm
      rw [counted, broken] at some
      cases some
  · refine ⟨⟨staffed.settings, staffed.kept, staffed.callers, ?_⟩, ?_⟩
    · simp only [if_neg rung]
      rw [List.count_eq_zero.2 rung]
      exact turn
    · simp only [if_neg rung]
      exact .refl reason shift.sweeper

/-- After its turn the sweeper waits for its alarm, unless it has broken down. -/
theorem Staffed.sweeperTurn (staffed : Staffed settings shift) {queue : List Party}
    (first : shift.queue = .sweeper :: queue) :
    let next := { shift with queue := queue }.takeTurn plan .sweeper
    next.queue.count .sweeper = next.sweeper.isReady.toNat
      ∧ Endures (SweepBreaks settings plan shift) shift.sweeper next.sweeper := by
  intro next
  have turn := staffed.turn
  rw [first, List.count_cons_self] at turn
  have count : next.queue.count .sweeper = queue.count .sweeper :=
    turn_takeTurn_sweeper plan { shift with queue := queue }
  have most := Bool.toNat_le shift.sweeper.isReady
  have ready : shift.sweeper = .working none := by
    rw [← Sweeper.isReady_iff, ← Bool.toNat_eq_one]
    omega
  have nobody : next.queue.count .sweeper = 0 := by omega
  have kept : ({ shift with queue := queue } : Shift ρ).desk.Kept := staffed.kept
  rcases sweeper_takeTurn plan kept with ⟨breaks, broken⟩ | ⟨_, alarm, working⟩
  · replace broken : next.sweeper = .broken := broken
    rw [nobody, broken, ready]
    exact ⟨rfl, fun _ _ => .inr ⟨rfl, staffed.settings ▸ breaks⟩, fun _ => rfl⟩
  · replace working : next.sweeper = .working (some alarm) := working
    rw [nobody, working, ready]
    exact ⟨rfl, fun _ _ => .inl ⟨_, rfl⟩, fun impossible => by cases impossible⟩

/-- A step of a shift lets the sweeper go on unless it is a sweep that breaks down. -/
theorem Staffed.advance (staffed : Staffed settings shift)
    (advanced : shift.advance plan = some next) : Staffed settings next
      ∧ Endures (shift.queue.head? = some .sweeper ∧ SweepBreaks settings plan shift)
        shift.sweeper next.sweeper := by
  simp only [Shift.advance] at advanced
  cases waiting : shift.queue with
  | nil =>
    simp only [waiting] at advanced
    exact staffed.moveOn waiting advanced _
  | cons party queue =>
    simp only [waiting, Option.some.injEq] at advanced
    subst advanced
    obtain ⟨calls, alike⟩ := acts_takeTurn plan party { shift with queue := queue } staffed.callers
    have same : ({ shift with queue := queue }.takeTurn plan party).desk.settings = settings :=
      (alike.settings.trans (Desk.settings_afterCalls _ calls _)).trans staffed.settings
    have kept : ({ shift with queue := queue }.takeTurn plan party).desk.Kept :=
      (staffed.kept.afterCalls _ calls).of_alike alike
    have callers : ∀ visit ∈ ({ shift with queue := queue }.takeTurn plan party).visits,
        visit.IsCaller := fun visit member =>
      staffed.callers visit ((visits_takeTurn plan party { shift with queue := queue }).mem member)
    by_cases own : party = .sweeper
    · subst own
      obtain ⟨turn, endures⟩ := staffed.sweeperTurn waiting
      exact ⟨⟨same, kept, callers, turn⟩,
        fun alarm working => (endures.working alarm working).imp_right fun broke =>
          ⟨broke.1, rfl, broke.2⟩, endures.broken⟩
    · have beside := beside_takeTurn plan own { shift with queue := queue }
      have turn := staffed.turn
      rw [waiting, List.count_cons_of_ne own, ← beside.count_sweeper] at turn
      refine ⟨⟨same, kept, callers, ?_⟩, ?_⟩
      · rw [beside.sweeper]
        exact turn
      · rw [beside.sweeper]
        exact .refl _ shift.sweeper

/-- A shift begins with the sweeper waiting for its turn, if there is one and it has an interval. -/
theorem staffed_opening (plan : Plan) {desk : Desk} (kept : desk.Kept) {visits : List (Visit ρ)}
    (callers : ∀ visit ∈ visits, visit.IsCaller) :
    Staffed desk.settings (opening plan desk visits) := by
  have begins (start begun : Shift ρ) (same : start.desk = desk)
      (own : start.visits = visits) (others : Party.sweeper ∉ start.queue)
      (sweeper : start.sweeper = .working none ∧ begun = { start.wakeAssigner with
          queue := start.wakeAssigner.queue ++ [Party.sweeper] }
        ∨ start.sweeper.isReady = false ∧ begun = start.wakeAssigner) :
      Staffed desk.settings begun := by
    have beside := beside_wakeAssigner start
    have settings := (alike_wakeAssigner start).settings.trans (congrArg Desk.settings same)
    have keeps : start.wakeAssigner.desk.Kept :=
      Desk.Kept.of_alike (same.symm ▸ kept) (alike_wakeAssigner start)
    have visitors := (visits_wakeAssigner start).trans own
    have count := beside.count_sweeper.trans (List.count_eq_zero.2 others)
    rcases sweeper with ⟨working, equal⟩ | ⟨idle, equal⟩
    · subst equal
      refine ⟨settings, keeps, visitors ▸ callers, ?_⟩
      rw [List.count_append, count, beside.sweeper, working]
      rfl
    · subst equal
      refine ⟨settings, keeps, visitors ▸ callers, ?_⟩
      rw [count, beside.sweeper, idle]
      rfl
  have ready (alarm : Option Alarm) (set : (if plan.hasSweeper then
      if plan.settings.sweepIntervalMs = 0 then Sweeper.broken else .working none
      else .absent) = .working alarm) : alarm = none := by
    split at set
    · split at set
      · cases set
      · cases set
        rfl
    · cases set
  simp only [opening]
  rcases nextVisit 0 visits with _ | ⟨_ | due, setAt⟩
  all_goals
    split
    · rename_i working
      rw [(beside_wakeAssigner _).sweeper] at working
      cases ready _ working
      exact begins _ _ rfl rfl (by simp) (.inl ⟨working, rfl⟩)
    · rename_i idle
      refine begins _ _ rfl rfl (by simp) (.inr ⟨?_, rfl⟩)
      rw [Bool.eq_false_iff]
      exact fun waits =>
        idle none ((beside_wakeAssigner _).sweeper.trans (Sweeper.isReady_iff.1 waits))

section Run

variable {desk : Desk} {visits : List (Visit ρ)} (kept : desk.Kept)
  (callers : ∀ visit ∈ visits, visit.IsCaller)

include kept callers

theorem staffed_run (plan : Plan) (count : Nat) :
    Staffed desk.settings ((opening plan desk visits).runFor plan count) := by
  induction count with
  | zero => exact staffed_opening plan kept callers
  | succ count ih =>
    rw [runFor_succ]
    cases advanced : ((opening plan desk visits).runFor plan count).advance plan with
    | none => exact ih
    | some next => exact (ih.advance advanced).1

/-- What a step of a shift does to the sweeper. -/
theorem endures_run (plan : Plan) (count : Nat) :
    Endures (((opening plan desk visits).runFor plan count).queue.head? = some .sweeper
        ∧ SweepBreaks desk.settings plan ((opening plan desk visits).runFor plan count))
      ((opening plan desk visits).runFor plan count).sweeper
      ((opening plan desk visits).runFor plan (count + 1)).sweeper := by
  rw [runFor_succ]
  cases advanced : ((opening plan desk visits).runFor plan count).advance plan with
  | none => exact .refl _ _
  | some next => exact ((staffed_run kept callers plan count).advance advanced).2

/-- A sweeper that has an interval is at work until one of its sweeps breaks down. -/
theorem working_run (plan : Plan) (present : plan.hasSweeper = true)
    (interval : plan.settings.sweepIntervalMs ≠ 0) (count : Nat) :
    (∃ alarm, ((opening plan desk visits).runFor plan count).sweeper = .working alarm)
      ∨ ∃ earlier, earlier < count
        ∧ ((opening plan desk visits).runFor plan earlier).queue.head? = some .sweeper
        ∧ SweepBreaks desk.settings plan ((opening plan desk visits).runFor plan earlier) := by
  induction count with
  | zero =>
    obtain ⟨_, working, _⟩ := opening_ready plan desk visits present interval
    exact .inl ⟨none, working⟩
  | succ count ih =>
    rcases ih with ⟨alarm, working⟩ | ⟨earlier, before, breaks⟩
    · rcases (endures_run kept callers plan count).working alarm working with
        later | ⟨_, breaks⟩
      · exact .inl later
      · exact .inr ⟨count, Nat.lt_succ_self count, breaks⟩
    · exact .inr ⟨earlier, Nat.lt_succ_of_lt before, breaks⟩

/-- A sweep that breaks down breaks the sweeper. -/
theorem breaks_run (plan : Plan) (count : Nat)
    (first : ((opening plan desk visits).runFor plan count).queue.head? = some .sweeper)
    (breaks : SweepBreaks desk.settings plan ((opening plan desk visits).runFor plan count)) :
    ((opening plan desk visits).runFor plan (count + 1)).sweeper = .broken := by
  have staffed := staffed_run kept callers plan count
  obtain ⟨queue, waiting⟩ := List.head?_eq_some_iff.1 first
  have advanced : ((opening plan desk visits).runFor plan count).advance plan = some
      ({ (opening plan desk visits).runFor plan count with queue := queue }.takeTurn plan
        .sweeper) := by
    simp only [advance, waiting]
  have keeps : ({ (opening plan desk visits).runFor plan count with
    queue := queue } : Shift ρ).desk.Kept := staffed.kept
  rw [runFor_succ, advanced]
  refine ((sweeper_takeTurn plan keeps).resolve_right fun stays => stays.1 ?_).2
  rw [staffed.settings]
  exact breaks

/-- A sweeper that has broken down does not recover. -/
theorem broken_run (plan : Plan) {count : Nat}
    (broken : ((opening plan desk visits).runFor plan count).sweeper = .broken) (later : Nat) :
    ((opening plan desk visits).runFor plan (count + later)).sweeper = .broken := by
  induction later with
  | zero => exact broken
  | succ later ih => exact (endures_run kept callers plan (count + later)).broken ih

end Run

theorem broken_opening (plan : Plan) (desk : Desk) (visits : List (Visit ρ))
    (present : plan.hasSweeper = true) (interval : plan.settings.sweepIntervalMs = 0) :
    (opening plan desk visits).sweeper = .broken := by
  simp only [opening, present, interval, if_true]
  rcases nextVisit 0 visits with _ | ⟨_ | due, setAt⟩
  all_goals
    split
    · rename_i working
      rw [(beside_wakeAssigner _).sweeper] at working
      cases working
    · exact (beside_wakeAssigner _).sweeper

/-- In every state of a run, whatever document it began with, a reclaim leaves the calendar exactly
when the job timeout is less than 2 ^ 63 milliseconds and reaches back beyond the beginning of the
calendar; else it is carried out, or its save fails, or a worn job has timed out. One that is not
carried out changes nothing, and a timeout of more milliseconds never ends, for jobs as for engines.
A sweeper that has an interval is at work throughout a shift until a sweep of its breaks down, over
its cutoff or over a worn job. Such a sweep breaks it, and it stays broken. -/
theorem sweeper_breaks_before_calendar {disk : Disk} {ids : IdSupply} {desk : Desk}
    (opened : Desk.start settings disk ids = .ok desk) (turns : List Turn) :
    let final := ((Session.opening desk).run turns).desk
    (∀ moment : Moment,
      ((final.reclaim moment).1 = .error (.broken .outOfCalendar) ↔ ∃ ms,
          final.settings.jobTimeoutMs = some ms ∧ ms.toNat < 2 ^ 63
            ∧ moment.now.totalNanos - nanosOfMs ms < firstSecond * 1000000000)
        ∧ (∀ setback after, final.reclaim moment = (.error setback, after) →
          final.Untouched after
            ∧ (setback = .broken .outOfCalendar
              ∨ setback = .broken .counterFull ∧ final.WornTimedOut moment.now
              ∨ ∃ detail, setback = .refused (.storage detail)))
        ∧ ((∀ ms, final.settings.jobTimeoutMs = some ms → 2 ^ 63 ≤ ms.toNat) →
          final.reclaim moment = (.ok [], final))
        ∧ ∀ ms, final.settings.engineTimeoutMs = some ms → 2 ^ 63 ≤ ms.toNat →
          final.staleEngines moment.now = [])
      ∧ ∀ (plan : Plan) (visits : List (Visit ρ)), (∀ visit ∈ visits, visit.IsCaller) →
        plan.hasSweeper = true →
        let state (count : Nat) := (opening plan final visits).runFor plan count
        (plan.settings.sweepIntervalMs ≠ 0 → ∀ count,
            (∃ alarm, (state count).sweeper = .working alarm)
              ∨ ∃ earlier, earlier < count ∧ (state earlier).queue.head? = some .sweeper
                ∧ SweepBreaks final.settings plan (state earlier))
          ∧ (plan.settings.sweepIntervalMs = 0 → (state 0).sweeper = .broken)
          ∧ (∀ count, (state count).queue.head? = some .sweeper →
            SweepBreaks final.settings plan (state count) → (state (count + 1)).sweeper = .broken)
          ∧ ∀ count, (state count).sweeper = .broken →
            ∀ later, (state (count + later)).sweeper = .broken := by
  intro final
  have kept : final.Kept := (Session.kept_run (Desk.kept_of_start opened) turns).1
  refine ⟨fun moment => ⟨?_, fun setback after stopped => ⟨?_, ?_⟩, ?_, ?_⟩, ?_⟩
  · rw [kept.reclaim_outOfCalendar_iff]
    constructor
    · rintro ⟨timeout, on, left⟩
      obtain ⟨ms, set, short, same⟩ := Settings.jobTimeout_eq_some_iff.1 on
      subst same
      exact ⟨ms, set, short, Instant.minus?_eq_none_iff.1 left⟩
    · rintro ⟨ms, set, short, left⟩
      exact ⟨_, Settings.jobTimeout_eq_some_iff.2 ⟨ms, set, short, rfl⟩,
        Instant.minus?_eq_none_iff.2 left⟩
  · have performed : Operation.reclaim.perform moment final = (.error setback, after) :=
      Operation.answering_eq_error.2 stopped
    exact Operation.perform_error performed
  · rcases kept.reclaim_error stopped with ⟨left, _⟩ | ⟨full, _, worn⟩ | ⟨detail, stored, _⟩
    · exact .inl left
    · exact .inr (.inl ⟨full, worn⟩)
    · exact .inr (.inr ⟨detail, stored⟩)
  · intro long
    apply Desk.reclaim_of_endless
    rw [Option.eq_none_iff_forall_ne_some]
    intro timeout on
    obtain ⟨ms, set, short, _⟩ := Settings.jobTimeout_eq_some_iff.1 on
    exact absurd short (Nat.not_lt.2 (long ms set))
  · intro ms set long
    exact Desk.staleEngines_of_endless set long moment.now
  · intro plan visits callers present
    exact ⟨working_run kept callers plan present, broken_opening plan final visits present,
      breaks_run kept callers plan, fun count => broken_run kept callers plan⟩

/-- A timeout of five seconds reaches back into the calendar from any time after 1970. -/
theorem sweeper_breaks_before_calendar_briskShift :
    Desk.start briskPlan.settings (Desk.onFile briskPlan.settings .tangled).disk
        (Desk.onFile briskPlan.settings .tangled).ids =
          .ok (.onFile briskPlan.settings .tangled)
      ∧ (∀ clock turn, ¬ Desk.LeavesCalendar briskPlan.settings (briskPlan.moment clock turn).now)
      ∧ (∀ count, SweepsSound briskPlan (briskShift.runFor briskPlan count))
      ∧ assigningVisit.IsCaller
      ∧ (∀ count, ∃ alarm, (briskShift.runFor briskPlan count).sweeper = .working alarm)
      ∧ ∀ moment setback after,
        (Desk.onFile briskPlan.settings .tangled).reclaim moment = (.error setback, after) →
          (Desk.onFile briskPlan.settings .tangled).Untouched after := by
  have opened := Desk.start_onFile briskPlan.settings
    (show Board.tangled.Storable by decide +kernel)
  have callers : ∀ visit ∈ [assigningVisit], visit.IsCaller := by
    intro visit member
    rw [List.mem_singleton.1 member]
    exact fun moment desk => ⟨[(.assign, moment.mishaps)], rfl⟩
  have within (clock turn : Nat) :
      ¬ Desk.LeavesCalendar briskPlan.settings (briskPlan.moment clock turn).now := by
    rintro ⟨timeout, on, left⟩
    have set : briskPlan.settings.jobTimeout = some 5000000000 := by decide +kernel
    cases set.symm.trans on
    have early : (millisecond clock).totalNanos - (5000000000 : Nat) < firstSecond * 1000000000 :=
      Instant.minus?_eq_none_iff.1 left
    simp only [millisecond, Instant.totalNanos, firstSecond] at early
    omega
  obtain ⟨reclaims, shifts⟩ := sweeper_breaks_before_calendar opened []
  obtain ⟨atWork, _⟩ := shifts briskPlan [assigningVisit] callers rfl
  refine ⟨opened, within, sweepsSound_briskShift, callers _ (List.mem_singleton_self _), ?_,
    fun moment setback after stopped => ((reclaims moment).2.1 setback after stopped).1⟩
  intro count
  refine (atWork (by decide) count).resolve_right ?_
  rintro ⟨earlier, _, head, leaves | worn⟩
  · exact within _ _ leaves
  · exact sweepsSound_briskShift earlier head worn

/-- The options of a server whose jobs may stay assigned for nine million million seconds, which is
less than 2 ^ 63 milliseconds. -/
def remoteOptions : CommandLine.ServerOptions :=
  { CommandLine.ServerOptions.defaults with jobTimeoutSecs := 9000000000000 }

/-- A shift of that server at the beginning of 1970. -/
def remotePlan : Plan where
  settings := remoteOptions.settings
  hasAssigner := true
  hasSweeper := true
  stop := 60000
  moment := fun clock _ => .calm (millisecond clock)

/-- The command line accepts such a timeout, and with it the first sweep breaks the sweeper. -/
theorem reclaim_outOfCalendar_remoteTimeout :
    CommandLine.Command.ofWords ["server", "--job-timeout-secs", "9000000000000"] =
        .ok (.server remoteOptions)
      ∧ (Desk.initial remoteOptions.settings).reclaim .first =
        (.error (.broken .outOfCalendar), .initial remoteOptions.settings)
      ∧ ((opening remotePlan (.initial remoteOptions.settings) ([] : List (Visit Unit))).runFor
        remotePlan 1).sweeper = .broken := by
  have on : remoteOptions.settings.jobTimeout = some 9000000000000000000000 := by
    decide +kernel
  have left : Moment.first.now.minus? 9000000000000000000000 = none := by
    decide +kernel
  refine ⟨by decide +kernel, ?_, by decide +kernel⟩
  simp only [Desk.reclaim, Desk.initial, on, left]

end Shift

end Background

end JobDispatch
