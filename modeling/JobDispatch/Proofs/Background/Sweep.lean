import JobDispatch.Proofs.Background.Shift
import JobDispatch.Proofs.Desk.AnyDocument
import JobDispatch.Proofs.Desk.Reclaim
import JobDispatch.Proofs.Time.Instant
set_option autoImplicit false

/- No assignment grows old unnoticed: at every moment of a shift with a sweeper that meets no worn
job, an assigned job was assigned no longer ago than the timeout and one interval of the sweeper.
What carries this through the shift is a bound that refers to the next sweep: whatever is assigned
now will be within the timeout and the interval when it comes. -/
namespace JobDispatch

open Time

namespace Desk

theorem Alike.trans {first second third : Desk} (left : first.Alike second)
    (right : second.Alike third) : first.Alike third :=
  ⟨left.settings.trans right.settings, left.board.trans right.board, left.disk.trans right.disk,
    left.ids.trans right.ids⟩

theorem Passed.of_alike {before after : Desk} (now : Instant) (alike : after.Alike before) :
    Passed now before after := by
  obtain ⟨settings, board, disk, _⟩ := alike
  refine ⟨settings, fun clear => disk ▸ clear, fun id job found _ => .inr ?_⟩
  rwa [board] at found

/-- Operations one after another are, as one, operations at their time. -/
theorem Kept.passed_calls {desk : Desk} (kept : desk.Kept) (now : Instant)
    (calls : List (Operation × (Nat → Mishaps))) :
    Passed now desk (desk.afterCalls now calls) := by
  induction calls generalizing desk with
  | nil => exact .refl now desk
  | cons call calls ih =>
    have first := kept.passed_perform call.1 ⟨now, call.2⟩
    exact first.trans (ih (kept.perform call.1 ⟨now, call.2⟩).1)

end Desk

namespace Background

/-- The time of day goes with the clock of the shift, so many nanoseconds for each of its steps, as
far as the horizon, and no call of a save fails. -/
structure Plan.KeepsTime (plan : Plan) (unit horizon : Nat) : Prop where
  steady : plan.IsSteady
  inStep : ∀ clock turn, clock ≤ horizon →
    (plan.moment 0 0).now.plus? (clock * unit) = some (plan.moment clock turn).now
  calm : ∀ clock turn saves, (plan.moment clock turn).mishaps saves = .none

def Plan.sweepInterval (plan : Plan) : Nat := plan.settings.sweepIntervalMs.toNat

namespace Shift

variable {ρ : Type} {plan : Plan}

/-- The time of the next sweep: the sweeper waits for its alarm, or is ready now. -/
def nextSweep (shift : Shift ρ) : Nat := (shift.sweeper.alarm?.map Alarm.due).getD shift.clock

theorem SilentUntil.clock_le_nextSweep {shift : Shift ρ} (ahead : shift.SilentUntil shift.clock) :
    shift.clock ≤ shift.nextSweep := by
  rw [nextSweep]
  cases set : shift.sweeper.alarm? with
  | none => exact Nat.le_refl _
  | some alarm => exact ahead.sweeper alarm set

/-- Something happened that has nothing to do with the sweeper. Others may have become ready. -/
structure Beside (before after : Shift ρ) : Prop where
  clock : after.clock = before.clock
  sweeper : after.sweeper = before.sweeper
  queue : ∃ more, after.queue = before.queue ++ more ∧ Party.sweeper ∉ more

variable {shift before middle after : Shift ρ}

theorem Beside.of_queue (clock : after.clock = before.clock)
    (sweeper : after.sweeper = before.sweeper) (queue : after.queue = before.queue) :
    Beside before after :=
  ⟨clock, sweeper, [], by rw [queue, List.append_nil], List.not_mem_nil⟩

theorem Beside.trans (first : Beside before middle) (second : Beside middle after) :
    Beside before after := by
  obtain ⟨more, queue, others⟩ := first.queue
  obtain ⟨later, grown, otherLater⟩ := second.queue
  refine ⟨second.clock.trans first.clock, second.sweeper.trans first.sweeper, more ++ later, ?_, ?_⟩
  · rw [grown, queue, List.append_assoc]
  · exact fun member => (List.mem_append.1 member).elim others otherLater

theorem Beside.nextSweep (beside : Beside before after) : after.nextSweep = before.nextSweep := by
  rw [Shift.nextSweep, Shift.nextSweep, beside.sweeper, beside.clock]

theorem Beside.count_sweeper (beside : Beside before after) :
    after.queue.count .sweeper = before.queue.count .sweeper := by
  obtain ⟨more, queue, others⟩ := beside.queue
  rw [queue, List.count_append, List.count_eq_zero.2 others, Nat.add_zero]

theorem beside_wakeAssigner (shift : Shift ρ) : Beside shift shift.wakeAssigner := by
  simp only [wakeAssigner]
  split
  · split
    · exact ⟨rfl, rfl, [.assigner], rfl, by decide⟩
    · exact .of_queue rfl rfl rfl
  · exact .of_queue rfl rfl rfl

theorem beside_assignTurn (plan : Plan) (moment : Moment) (shift : Shift ρ) :
    Beside shift (shift.assignTurn plan moment) := by
  simp only [assignTurn]
  split
  · exact .of_queue rfl rfl rfl
  · split
    · exact .of_queue rfl rfl rfl
    · split
      · exact ⟨rfl, rfl, [.assigner], rfl, by decide⟩
      · exact .of_queue rfl rfl rfl

theorem beside_visitTurn (moment : Moment) (shift : Shift ρ) :
    Beside shift (shift.visitTurn moment) := by
  simp only [visitTurn]
  split
  · exact .of_queue rfl rfl rfl
  · split
    · exact .of_queue rfl rfl rfl
    · split
      · exact ⟨rfl, rfl, [.visitor], rfl, by decide⟩
      · exact .of_queue rfl rfl rfl

/-- A turn of somebody else has nothing to do with the sweeper. -/
theorem beside_takeTurn (plan : Plan) {party : Party} (other : party ≠ .sweeper)
    (shift : Shift ρ) : Beside shift (shift.takeTurn plan party) := by
  have counted : Beside shift { shift with turns := shift.turns + 1 } := .of_queue rfl rfl rfl
  simp only [takeTurn]
  refine counted.trans (.trans ?_ (beside_wakeAssigner _))
  cases party with
  | assigner => exact beside_assignTurn ..
  | sweeper => exact absurd rfl other
  | visitor => exact beside_visitTurn ..

/-- A wake-up of the assigner takes nothing but the wake-up from the desk. -/
theorem alike_wakeAssigner (shift : Shift ρ) : shift.wakeAssigner.desk.Alike shift.desk := by
  simp only [wakeAssigner]
  split
  · split
    · exact ⟨rfl, rfl, rfl, rfl⟩
    · exact .refl shift.desk
  · exact .refl shift.desk

/-- What happens to the desk in a turn is done by operations at its time. -/
theorem acts_takeTurn (plan : Plan) (party : Party) (shift : Shift ρ)
    (callers : ∀ visit ∈ shift.visits, visit.IsCaller) :
    ∃ calls, (shift.takeTurn plan party).desk.Alike
      (shift.desk.afterCalls (plan.moment shift.clock (shift.turns + 1)).now calls) := by
  have woken {turned : Shift ρ} {calls : List (Operation × (Nat → Mishaps))}
      (acted : turned.desk =
        shift.desk.afterCalls (plan.moment shift.clock (shift.turns + 1)).now calls) :
      ∃ calls, turned.wakeAssigner.desk.Alike
        (shift.desk.afterCalls (plan.moment shift.clock (shift.turns + 1)).now calls) :=
    ⟨calls, acted ▸ alike_wakeAssigner turned⟩
  simp only [takeTurn]
  cases party with
  | assigner =>
    simp only [assignTurn]
    split
    · exact woken (show _ = shift.desk.afterCalls _ [] from rfl)
    · have tried : (shift.desk.assign (plan.moment shift.clock (shift.turns + 1))).2 =
          shift.desk.afterCalls (plan.moment shift.clock (shift.turns + 1)).now
            [(.assign, (plan.moment shift.clock (shift.turns + 1)).mishaps)] := rfl
      split
      · rename_i refused
        rw [refused] at tried
        exact woken tried
      · rename_i accepted
        rw [accepted] at tried
        split <;> exact woken tried
  | sweeper =>
    have tried : (shift.desk.reclaim (plan.moment shift.clock (shift.turns + 1))).2 =
        shift.desk.afterCalls (plan.moment shift.clock (shift.turns + 1)).now
          [(.reclaim, (plan.moment shift.clock (shift.turns + 1)).mishaps)] := rfl
    simp only [sweepTurn]
    split
    all_goals
      rename_i reclaimed
      rw [reclaimed] at tried
      exact woken tried
  | visitor =>
    simp only [visitTurn]
    split
    · exact woken (show _ = shift.desk.afterCalls _ [] from rfl)
    · rename_i visit visits listed
      replace listed : shift.visits = visit :: visits := listed
      have own : visit.IsCaller := callers visit (listed ▸ List.mem_cons_self)
      obtain ⟨calls, acted⟩ := own (plan.moment shift.clock (shift.turns + 1)) shift.desk
      split
      · exact woken acted
      · split <;> exact woken acted

theorem passed_takeTurn (plan : Plan) (party : Party) (shift : Shift ρ) (kept : shift.desk.Kept)
    (callers : ∀ visit ∈ shift.visits, visit.IsCaller) :
    shift.desk.Passed (plan.moment shift.clock (shift.turns + 1)).now
      (shift.takeTurn plan party).desk := by
  obtain ⟨calls, alike⟩ := acts_takeTurn plan party shift callers
  exact (kept.passed_calls _ calls).trans (.of_alike _ alike)

/-- What holds of a shift with a sweeper from its beginning: the sweeper waits for its alarm or for
one turn, at most one interval ahead, and nothing stands in the way of its saves. -/
structure AtWork (plan : Plan) (settings : Settings) (shift : Shift ρ) : Prop where
  settings : shift.desk.settings = settings
  clear : shift.desk.disk.IsClear
  working : ∃ alarm, shift.sweeper = .working alarm
  turn : shift.queue.count .sweeper = shift.sweeper.alarm?.isNone.toNat
  soon : shift.nextSweep ≤ shift.clock + plan.sweepInterval
  common : ∀ id job time, shift.desk.board.jobs.get? id = some job → job.status = .assigned →
    job.assignedAt = some time → time.isLeap = false

/-- What holds from the first sweep on: at the next one, every assigned job will be within the
timeout and one interval. -/
def Young (plan : Plan) (unit timeout : Nat) (shift : Shift ρ) : Prop :=
  ∀ id job time, shift.desk.board.jobs.get? id = some job → job.status = .assigned →
    job.assignedAt = some time →
    (plan.moment 0 0).now.totalNanos + shift.nextSweep * unit ≤
      time.totalNanos + timeout + plan.sweepInterval * unit

/-- What a sweep leads to at once: no assignment is left that has timed out, and all others are
young. -/
structure Swept (plan : Plan) (unit timeout : Nat) (before after : Shift ρ) : Prop where
  clock : after.clock = before.clock
  young : Young plan unit timeout after
  left : ∀ turn, ∃ cutoff, (plan.moment before.clock turn).now.minus? timeout = some cutoff
    ∧ ∀ id job time, after.desk.board.jobs.get? id = some job → job.status = .assigned →
      job.assignedAt = some time → time.before cutoff = false

/-- The sweeper, if it has the next turn, meets no worn job. -/
def SweepsSound (plan : Plan) (shift : Shift ρ) : Prop :=
  shift.queue.head? = some .sweeper →
    ¬ shift.desk.WornTimedOut (plan.moment shift.clock (shift.turns + 1)).now

variable {settings : Settings} {unit horizon timeout : Nat}

/-- Who has a turn beside the sweeper keeps it at work. -/
theorem AtWork.beside (atWork : AtWork plan settings shift) {now : Instant}
    (common : now.isLeap = false) {party : Party} {queue : List Party}
    (first : shift.queue = party :: queue) (other : party ≠ .sweeper)
    (beside : Beside { shift with queue := queue } after)
    (passed : shift.desk.Passed now after.desk) :
    AtWork plan settings after := by
  obtain ⟨alarm, working⟩ := atWork.working
  have counted := atWork.turn
  rw [first, List.count_cons_of_ne other] at counted
  have soon := atWork.soon
  refine ⟨passed.settings.trans atWork.settings, passed.clear atWork.clear,
    ⟨alarm, beside.sweeper.trans working⟩, ?_, ?_, ?_⟩
  · rw [beside.count_sweeper, beside.sweeper]
    exact counted
  · rw [beside.nextSweep, beside.clock]
    exact soon
  · intro id job time found held stamped
    rcases passed.held id job found held with assigned | there
    · cases stamped.symm.trans assigned
      exact common
    · exact atWork.common id job time there held stamped

/-- Jobs that are assigned in such a turn are young, and those that were young stay so. -/
theorem Young.beside (young : Young plan unit timeout shift) (atWork : AtWork plan settings shift)
    {now : Instant}
    (onTime : now.totalNanos = (plan.moment 0 0).now.totalNanos + shift.clock * unit)
    {queue : List Party} (beside : Beside { shift with queue := queue } after)
    (passed : shift.desk.Passed now after.desk) : Young plan unit timeout after := by
  intro id job time found held stamped
  have next : after.nextSweep = shift.nextSweep := beside.nextSweep
  rw [next]
  rcases passed.held id job found held with assigned | there
  · cases stamped.symm.trans assigned
    have soon := Nat.mul_le_mul_right unit atWork.soon
    rw [Nat.add_mul] at soon
    rw [onTime]
    omega
  · exact young id job time there held stamped

/-- The shift with the alarm of the sweeper set for one interval later. -/
def rescheduled (plan : Plan) (shift : Shift ρ) : Shift ρ :=
  { shift with
    sweeper := .working (some ⟨shift.clock + plan.sweepInterval, shift.turns + 1⟩) }

/-- A sweep that goes through sets the alarm for the next one. -/
theorem beside_sweep (shift : Shift ρ) {outcomes : List (Uuid × FailureOutcome)} {desk : Desk}
    (reclaimed : shift.desk.reclaim (plan.moment shift.clock (shift.turns + 1)) =
      (.ok outcomes, desk)) :
    Beside (shift.rescheduled plan) (shift.takeTurn plan .sweeper)
      ∧ (shift.takeTurn plan .sweeper).desk.Alike desk := by
  have swept : { shift with turns := shift.turns + 1 }.sweepTurn plan
      (plan.moment shift.clock (shift.turns + 1)) =
        { shift.rescheduled plan with turns := shift.turns + 1, desk := desk } := by
    simp only [sweepTurn, reclaimed, rescheduled, Plan.sweepInterval]
  have begun : Beside (shift.rescheduled plan)
      { shift.rescheduled plan with turns := shift.turns + 1, desk := desk } :=
    .of_queue rfl rfl rfl
  simp only [takeTurn, swept]
  exact ⟨begun.trans (beside_wakeAssigner _), alike_wakeAssigner _⟩

/-- A sweep leaves no assignment that has timed out, and all others young. -/
theorem AtWork.sweep (atWork : AtWork plan settings shift) (kept : shift.desk.Kept)
    {queue : List Party} (first : shift.queue = .sweeper :: queue)
    (on : settings.jobTimeout = some timeout) {moment : Moment}
    (told : plan.moment shift.clock (shift.turns + 1) = moment) (calm : moment.mishaps 0 = .none)
    (common : moment.now.isLeap = false)
    (onTime : moment.now.totalNanos = (plan.moment 0 0).now.totalNanos + shift.clock * unit)
    {cutoff : Instant} (back : moment.now.minus? timeout = some cutoff)
    (sound : ¬ shift.desk.WornTimedOut moment.now) :
    let next := { shift with queue := queue }.takeTurn plan .sweeper
    next.clock = shift.clock ∧ AtWork plan settings next ∧ Young plan unit timeout next
      ∧ ∀ id job time, next.desk.board.jobs.get? id = some job → job.status = .assigned →
        job.assignedAt = some time → time.before cutoff = false := by
  intro next
  have passed : shift.desk.Passed moment.now (shift.desk.reclaim moment).2 :=
    kept.passed_perform .reclaim moment
  replace on : shift.desk.settings.jobTimeout = some timeout := atWork.settings ▸ on
  obtain ⟨outcomes, desk, reclaimed, left⟩ := kept.reclaim_ok atWork.clear calm on back
    fun worn => sound ⟨timeout, cutoff, on, back, worn⟩
  rw [reclaimed] at passed
  rw [← told] at reclaimed
  obtain ⟨beside, alike⟩ : Beside ({ shift with queue := queue }.rescheduled plan) next
      ∧ next.desk.Alike desk := beside_sweep { shift with queue := queue } reclaimed
  have after := passed.trans (.of_alike moment.now alike)
  have soon : next.nextSweep = shift.clock + plan.sweepInterval := beside.nextSweep
  have none : queue.count .sweeper = 0 := by
    have counted := atWork.turn
    rw [first, List.count_cons_self] at counted
    have most := Bool.toNat_le shift.sweeper.alarm?.isNone
    omega
  rw [← alike.board] at left
  refine ⟨beside.clock, ⟨after.settings.trans atWork.settings, after.clear atWork.clear,
    ⟨_, beside.sweeper⟩, ?_, ?_, ?_⟩, ?_, left⟩
  · rw [beside.count_sweeper, beside.sweeper]
    exact none
  · rw [soon, beside.clock]
    exact Nat.le_refl _
  · intro id job time found held stamped
    rcases after.held id job found held with assigned | there
    · cases stamped.symm.trans assigned
      exact common
    · exact atWork.common id job time there held stamped
  · intro id job time found held stamped
    have young := Instant.le_of_before_minus?_eq_false common back
      (left id job time found held stamped)
    rw [onTime] at young
    rw [soon, Int.natCast_add, Int.add_mul]
    omega

/-- Time does not move back. -/
theorem clock_le_moveOn (ahead : shift.SilentUntil shift.clock) {next : Shift ρ}
    (moved : shift.moveOn plan = some next) : shift.clock ≤ next.clock := by
  obtain ⟨due, called, least, _, equal⟩ := moveOn_eq_some moved
  obtain ⟨listed, _⟩ := List.min?_eq_some_iff.1 least
  obtain ⟨entry, member, rings⟩ := List.mem_map.1 listed
  have later := silentUntil_iff.1 ahead entry member
  rw [rings] at later
  rw [equal]
  exact later

/-- The sweeper is called once if its alarm rings, and else not at all. -/
theorem count_sweeper_ringing (due : Nat) (shift : Shift ρ) :
    ((shift.alarms.filter fun entry => entry.1.due = due).map Prod.snd).count .sweeper =
      (shift.sweeper.alarm?.any fun alarm => alarm.due = due).toNat := by
  simp [alarms_eq, count_listed]

/-- Time moves on to the next sweep at most, and calls the sweeper when it is reached. -/
theorem AtWork.moveOn (atWork : AtWork plan settings shift) (ahead : shift.SilentUntil shift.clock)
    (nobody : shift.queue = []) {next : Shift ρ} (moved : shift.moveOn plan = some next) :
    next.desk = shift.desk ∧ next.nextSweep = shift.nextSweep ∧ AtWork plan settings next := by
  have later := clock_le_moveOn ahead moved
  obtain ⟨due, called, least, permuted, equal⟩ := moveOn_eq_some moved
  obtain ⟨_, least⟩ := List.min?_eq_some_iff.1 least
  have silent : shift.SilentUntil due := silentUntil_iff.2 fun entry member =>
    least entry.1.due (List.mem_map.2 ⟨entry, member, rfl⟩)
  -- nobody is ready, so that the sweeper waits for its alarm
  obtain ⟨waiting, working⟩ := atWork.working
  have turn := atWork.turn
  rw [nobody, working] at turn
  cases waiting with
  | none => cases turn
  | some alarm =>
    have bound : due ≤ alarm.due := silent.sweeper alarm (by rw [working]; rfl)
    have next : shift.nextSweep = alarm.due := by
      rw [Shift.nextSweep, working]
      rfl
    have counted := permuted.count_eq .sweeper
    rw [count_sweeper_ringing, working] at counted
    have soon := atWork.soon
    rw [next] at soon
    rw [foldl_silence] at equal
    subst equal
    replace later : shift.clock ≤ due := later
    by_cases rings : alarm.due = due
    · have rung : Party.sweeper ∈ called := by
        rw [← List.count_pos_iff, counted]
        simp [Sweeper.alarm?, rings]
      refine ⟨rfl, ?_, atWork.settings, atWork.clear, ⟨none, if_pos rung⟩, ?_, ?_,
        atWork.common⟩
      · rw [next, rings]
        simp [Shift.nextSweep, rung, Sweeper.alarm?]
      · simp [rung, Sweeper.alarm?, counted, rings]
      · simp only [Shift.nextSweep, if_pos rung, Sweeper.alarm?, Option.map_none, Option.getD_none]
        exact Nat.le_add_right _ _
    · have silent : Party.sweeper ∉ called := by
        rw [← List.count_eq_zero, counted]
        simp [Sweeper.alarm?, rings]
      refine ⟨rfl, ?_, atWork.settings, atWork.clear,
        ⟨some alarm, (if_neg silent).trans working⟩, ?_, ?_, atWork.common⟩
      · rw [next]
        simp [Shift.nextSweep, silent, working, Sweeper.alarm?]
      · simp [silent, working, Sweeper.alarm?, counted, rings]
      · simp only [Shift.nextSweep, if_neg silent, working, Sweeper.alarm?, Option.map_some,
          Option.getD_some]
        omega

/-- A step of the shift keeps the sweeper at work and all assignments young, and a sweep makes them
so. -/
theorem AtWork.advance (timed : plan.KeepsTime unit horizon)
    (on : settings.jobTimeout = some timeout)
    (early : ((plan.moment 0 0).now.minus? timeout).isSome = true)
    (atWork : AtWork plan settings shift) (kept : shift.desk.Kept)
    (callers : ∀ visit ∈ shift.visits, visit.IsCaller) (ahead : shift.SilentUntil shift.clock)
    (sound : SweepsSound plan shift) (within : shift.clock ≤ horizon) {next : Shift ρ}
    (advanced : shift.advance plan = some next) :
    AtWork plan settings next
      ∧ (Young plan unit timeout shift → Young plan unit timeout next)
      ∧ (shift.queue.head? = some .sweeper → Swept plan unit timeout shift next) := by
  obtain ⟨common, onTime⟩ :=
    Instant.plus?_eq_some.1 (timed.inStep shift.clock (shift.turns + 1) within)
  rw [Int.natCast_mul] at onTime
  simp only [Shift.advance] at advanced
  cases waiting : shift.queue with
  | nil =>
    simp only [waiting] at advanced
    obtain ⟨same, sweep, after⟩ := atWork.moveOn ahead waiting advanced
    refine ⟨after, ?_, ?_⟩
    · intro young id job time found held stamped
      rw [sweep]
      rw [same] at found
      exact young id job time found held stamped
    · intro first
      cases first
  | cons party queue =>
    simp only [waiting, Option.some.injEq] at advanced
    subst advanced
    by_cases other : party = .sweeper
    · subst other
      have order : (plan.moment 0 0).now.totalNanos ≤
          (plan.moment shift.clock (shift.turns + 1)).now.totalNanos := by
        rw [onTime]
        exact Int.le_add_of_nonneg_right
          (Int.mul_nonneg (Int.natCast_nonneg _) (Int.natCast_nonneg _))
      obtain ⟨cutoff, back⟩ := Option.isSome_iff_exists.1
        (Instant.isSome_minus?_of_le (timed.steady.common 0 0) common order early)
      obtain ⟨clock, after, young, left⟩ := atWork.sweep kept waiting on rfl
        (timed.calm shift.clock (shift.turns + 1) 0) common onTime back
        (sound (by rw [waiting]; rfl))
      refine ⟨after, fun _ => young, fun _ => ⟨clock, young, ?_⟩⟩
      intro turn
      have same : (plan.moment shift.clock turn).now =
          (plan.moment shift.clock (shift.turns + 1)).now :=
        Option.some.inj ((timed.inStep shift.clock turn within).symm.trans
          (timed.inStep shift.clock (shift.turns + 1) within))
      exact ⟨cutoff, same ▸ back, left⟩
    · have beside := beside_takeTurn plan other { shift with queue := queue }
      have passed : shift.desk.Passed (plan.moment shift.clock (shift.turns + 1)).now
          ({ shift with queue := queue }.takeTurn plan party).desk :=
        passed_takeTurn plan party { shift with queue := queue } kept callers
      refine ⟨atWork.beside common waiting other beside passed,
        fun young => young.beside atWork onTime beside passed, ?_⟩
      intro first
      exact absurd (Option.some.inj first) other

/-- A turn takes no time. -/
theorem clock_takeTurn (plan : Plan) (party : Party) (shift : Shift ρ) :
    (shift.takeTurn plan party).clock = shift.clock := by
  by_cases own : party = .sweeper
  · subst own
    simp only [takeTurn, (beside_wakeAssigner _).clock, sweepTurn]
    split <;> rfl
  · exact (beside_takeTurn plan own shift).clock

theorem clock_le_advance (ahead : shift.SilentUntil shift.clock) {next : Shift ρ}
    (advanced : shift.advance plan = some next) : shift.clock ≤ next.clock := by
  simp only [Shift.advance] at advanced
  split at advanced
  · rename_i party queue _
    cases advanced
    exact Nat.le_of_eq (clock_takeTurn plan party { shift with queue := queue }).symm
  · exact clock_le_moveOn ahead advanced

/-- Whoever is first in the queue has the next turn. -/
theorem exists_advance (plan : Plan) {party : Party} (head : shift.queue.head? = some party) :
    ∃ next, shift.advance plan = some next := by
  obtain ⟨queue, waiting⟩ := List.head?_eq_some_iff.1 head
  simp only [Shift.advance, waiting]
  exact ⟨_, rfl⟩

/-- The last of several steps may be counted apart. -/
theorem runFor_succ (plan : Plan) (limit : Nat) (shift : Shift ρ) :
    shift.runFor plan (limit + 1) =
      ((shift.runFor plan limit).advance plan).getD (shift.runFor plan limit) := by
  induction limit generalizing shift with
  | zero =>
    simp only [runFor]
    cases shift.advance plan <;> rfl
  | succ limit ih =>
    rw [runFor]
    cases advanced : shift.advance plan with
    | none => simp only [runFor, advanced, Option.getD_none]
    | some next =>
      simp only [ih next]
      simp only [runFor, advanced]

theorem runFor_of_ended {limit : Nat}
    (ended : (shift.runFor plan limit).advance plan = none) (more : Nat) :
    shift.runFor plan (limit + more) = shift.runFor plan limit := by
  induction more with
  | zero => rfl
  | succ more ih => rw [← Nat.add_assoc, runFor_succ, ih, ended, Option.getD_none]

/-- Whoever waits for a turn gets it before time moves on. -/
theorem exists_tick (plan : Plan) {front back : List Party}
    (waits : shift.queue = front ++ .sweeper :: back) : ∃ count,
      (shift.runFor plan count).clock = shift.clock
        ∧ (shift.runFor plan count).queue.head? = some .sweeper := by
  induction front generalizing shift back with
  | nil => exact ⟨0, rfl, by rw [runFor, waits]; rfl⟩
  | cons party front ih =>
    by_cases own : party = .sweeper
    · exact ⟨0, rfl, by rw [runFor, waits, own]; rfl⟩
    · have beside := beside_takeTurn plan own { shift with queue := front ++ .sweeper :: back }
      obtain ⟨more, queue, _⟩ := beside.queue
      rw [List.append_assoc] at queue
      obtain ⟨count, clock, head⟩ := ih queue
      have advanced : shift.advance plan =
          some ({ shift with queue := front ++ Party.sweeper :: back }.takeTurn plan party) := by
        simp only [advance, waits, List.cons_append]
      refine ⟨count + 1, ?_, ?_⟩
      · simp only [runFor, advanced]
        exact clock.trans beside.clock
      · simp only [runFor, advanced]
        exact head

/-- A shift with a sweeper begins with the sweeper ready, after those who came earlier. -/
theorem opening_ready (plan : Plan) (desk : Desk) (visits : List (Visit ρ))
    (present : plan.hasSweeper = true) (interval : plan.settings.sweepIntervalMs ≠ 0) :
    (opening plan desk visits).clock = 0
      ∧ (opening plan desk visits).sweeper = .working none
      ∧ (opening plan desk visits).desk.Alike desk
      ∧ ∃ front, (opening plan desk visits).queue = front ++ [.sweeper]
        ∧ Party.sweeper ∉ front := by
  have begins (start : Shift ρ) (clock : start.clock = 0) (ready : start.sweeper = .working none)
      (alike : start.desk.Alike desk) (others : Party.sweeper ∉ start.queue) (begun : Shift ρ)
      (same : begun = { start.wakeAssigner with
        queue := start.wakeAssigner.queue ++ [Party.sweeper] }) :
      begun.clock = 0 ∧ begun.sweeper = .working none ∧ begun.desk.Alike desk
        ∧ ∃ front, begun.queue = front ++ [.sweeper] ∧ Party.sweeper ∉ front := by
    have beside := beside_wakeAssigner start
    obtain ⟨more, queue, later⟩ := beside.queue
    subst same
    refine ⟨beside.clock.trans clock, beside.sweeper.trans ready,
      (alike_wakeAssigner start).trans alike, start.queue ++ more, by rw [queue], ?_⟩
    exact fun member => (List.mem_append.1 member).elim others later
  simp only [opening, present, if_true, if_neg interval]
  rcases nextVisit 0 visits with _ | ⟨_ | due, setAt⟩
  all_goals
    split
    · exact begins _ rfl rfl (.refl desk) (by simp) _ rfl
    · rename_i other
      exact (other _ (beside_wakeAssigner _).sweeper).elim

/-- A sweeper is at work from the beginning. -/
theorem atWork_opening {desk : Desk} (visits : List (Visit ρ)) (present : plan.hasSweeper = true)
    (interval : plan.settings.sweepIntervalMs ≠ 0) (same : desk.settings = settings)
    (clear : desk.disk.IsClear)
    (common : ∀ id job time, desk.board.jobs.get? id = some job → job.status = .assigned →
      job.assignedAt = some time → time.isLeap = false) :
    AtWork plan settings (opening plan desk visits) := by
  obtain ⟨_, working, alike, front, queue, others⟩ :=
    opening_ready plan desk visits present interval
  refine ⟨alike.settings.trans same, alike.disk ▸ clear, ⟨none, working⟩, ?_, ?_, ?_⟩
  · rw [queue, working, List.count_append, List.count_eq_zero.2 others]
    rfl
  · rw [nextSweep, working]
    exact Nat.le_add_right _ _
  · rw [alike.board]
    exact common

theorem clock_le_run {disk : Disk} {ids : IdSupply} {desk : Desk} {visits : List (Visit ρ)}
    (opened : Desk.start settings disk ids = .ok desk) (steady : plan.IsSteady)
    (callers : ∀ visit ∈ visits, visit.IsCaller) (count : Nat) :
    ((opening plan desk visits).runFor plan count).clock ≤
      ((opening plan desk visits).runFor plan (count + 1)).clock := by
  obtain ⟨_, _, view⟩ := sound_run opened steady callers count
  rw [runFor_succ]
  cases advanced : ((opening plan desk visits).runFor plan count).advance plan with
  | none => exact Nat.le_refl _
  | some next => exact clock_le_advance view.ahead advanced

section Run

variable {disk : Disk} {ids : IdSupply} {desk : Desk} {visits : List (Visit ρ)}
  (opened : Desk.start settings disk ids = .ok desk) (timed : plan.KeepsTime unit horizon)
  (on : settings.jobTimeout = some timeout)
  (early : ((plan.moment 0 0).now.minus? timeout).isSome = true)
  (callers : ∀ visit ∈ visits, visit.IsCaller)
  (sound : ∀ count, SweepsSound plan ((opening plan desk visits).runFor plan count))
  (begun : AtWork plan settings (opening plan desk visits))

include opened timed on early callers sound

/-- An advance in the course of a shift. -/
theorem advance_run {count : Nat}
    (atWork : AtWork plan settings ((opening plan desk visits).runFor plan count))
    (within : ((opening plan desk visits).runFor plan count).clock ≤ horizon) {next : Shift ρ}
    (advanced : ((opening plan desk visits).runFor plan count).advance plan = some next) :
    AtWork plan settings next
      ∧ (Young plan unit timeout ((opening plan desk visits).runFor plan count) →
        Young plan unit timeout next)
      ∧ (((opening plan desk visits).runFor plan count).queue.head? = some .sweeper →
        Swept plan unit timeout ((opening plan desk visits).runFor plan count) next) := by
  obtain ⟨floor, kept, view⟩ := sound_run opened timed.steady callers count
  exact atWork.advance timed on early (view.desk ▸ kept.kept) view.callers view.ahead (sound count)
    within advanced

include begun

/-- Within the horizon the sweeper is at work throughout. -/
theorem atWork_run (count : Nat)
    (within : ((opening plan desk visits).runFor plan count).clock ≤ horizon) :
    AtWork plan settings ((opening plan desk visits).runFor plan count) := by
  induction count with
  | zero => exact begun
  | succ count ih =>
    have before := (clock_le_run opened timed.steady callers count).trans within
    rw [runFor_succ]
    cases advanced : ((opening plan desk visits).runFor plan count).advance plan with
    | none => exact ih before
    | some next =>
      exact (advance_run opened timed on early callers sound (ih before) before advanced).1

/-- What a sweep leads to in the course of a shift. -/
theorem swept_run {tick : Nat}
    (head : ((opening plan desk visits).runFor plan tick).queue.head? = some .sweeper)
    (within : ((opening plan desk visits).runFor plan tick).clock ≤ horizon) :
    Swept plan unit timeout ((opening plan desk visits).runFor plan tick)
      ((opening plan desk visits).runFor plan (tick + 1)) := by
  have atWork := atWork_run opened timed on early callers sound begun tick within
  obtain ⟨next, advanced⟩ := exists_advance plan head
  rw [runFor_succ, advanced, Option.getD_some]
  exact (advance_run opened timed on early callers sound atWork within advanced).2.2 head

/-- Within the horizon all assignments are young after any sweep. -/
theorem young_run {tick : Nat}
    (head : ((opening plan desk visits).runFor plan tick).queue.head? = some .sweeper)
    (later : Nat)
    (within : ((opening plan desk visits).runFor plan (tick + 1 + later)).clock ≤ horizon) :
    Young plan unit timeout ((opening plan desk visits).runFor plan (tick + 1 + later)) := by
  induction later with
  | zero =>
    have before := (clock_le_run opened timed.steady callers tick).trans within
    exact (swept_run opened timed on early callers sound begun head before).young
  | succ later ih =>
    rw [← Nat.add_assoc] at within ⊢
    have before := (clock_le_run opened timed.steady callers (tick + 1 + later)).trans within
    have atWork := atWork_run opened timed on early callers sound begun _ before
    rw [runFor_succ]
    cases advanced : ((opening plan desk visits).runFor plan (tick + 1 + later)).advance plan with
    | none => exact ih before
    | some next =>
      exact (advance_run opened timed on early callers sound atWork before advanced).2.1 (ih before)

end Run

/-- In a shift with a sweeper that meets no worn job the first sweep is at the very beginning. Right
after each sweep no assigned job was assigned longer ago than the timeout. At every moment after the
first sweep, up to the next one, an assigned job was assigned no longer ago than the timeout and one
interval: whether the document had it, or it was assigned or reclaimed and assigned again in the
meantime. -/
theorem sweep_bounds_age {disk : Disk} {ids : IdSupply} {desk : Desk} {visits : List (Visit ρ)}
    (opened : Desk.start settings disk ids = .ok desk) (clear : disk.IsClear)
    (common : ∀ id job time, desk.board.jobs.get? id = some job → job.status = .assigned →
      job.assignedAt = some time → time.isLeap = false)
    (present : plan.hasSweeper = true) (interval : plan.settings.sweepIntervalMs ≠ 0)
    (timed : plan.KeepsTime unit horizon) (on : settings.jobTimeout = some timeout)
    (early : ((plan.moment 0 0).now.minus? timeout).isSome = true)
    (callers : ∀ visit ∈ visits, visit.IsCaller)
    (sound : ∀ count, SweepsSound plan ((opening plan desk visits).runFor plan count)) :
    let state (count : Nat) := (opening plan desk visits).runFor plan count
    (∃ first, (state first).clock = 0 ∧ (state first).queue.head? = some .sweeper)
      ∧ ∀ tick, (state tick).queue.head? = some .sweeper →
        ((state tick).clock ≤ horizon → (state (tick + 1)).clock = (state tick).clock
          ∧ ∀ turn, ∃ cutoff, (plan.moment (state tick).clock turn).now.minus? timeout = some cutoff
            ∧ ∀ id job, (state (tick + 1)).desk.board.jobs.get? id = some job →
              job.status = .assigned → ∃ time, job.assignedAt = some time
                ∧ time.before cutoff = false)
        ∧ ∀ count, tick < count → (state count).clock ≤ horizon →
          (state count).clock ≤ (state count).nextSweep
          ∧ ∀ id job, (state count).desk.board.jobs.get? id = some job → job.status = .assigned →
            ∃ time, job.assignedAt = some time
              ∧ ∀ clock turn, clock ≤ (state count).nextSweep → clock ≤ horizon →
                (plan.moment clock turn).now.since time ≤
                  timeout + plan.settings.sweepIntervalMs.toNat * unit := by
  intro state
  have begun : AtWork plan settings (opening plan desk visits) := by
    obtain ⟨_, _, same⟩ := Desk.start_eq_ok.1 opened
    subst same
    exact atWork_opening visits present interval rfl clear common
  have kept (count : Nat) : (state count).desk.Kept := by
    obtain ⟨floor, kept, view⟩ := sound_run opened timed.steady callers count
    exact view.desk ▸ kept.kept
  have stamped (count : Nat) (id : Uuid) (job : Job)
      (found : (state count).desk.board.jobs.get? id = some job) (held : job.status = .assigned) :
      ∃ time, job.assignedAt = some time :=
    Option.isSome_iff_exists.1 ((((Job.brokenRule?_eq_none_iff job).1
      ((kept count).storable.jobs id job found).2.1).2.1).2 held)
  refine ⟨?_, fun tick head => ⟨fun within => ?_, fun count after within => ⟨?_, ?_⟩⟩⟩
  · obtain ⟨clock, _, _, front, queue, _⟩ := opening_ready plan desk visits present interval
    obtain ⟨first, same, head⟩ := exists_tick plan queue
    exact ⟨first, same.trans clock, head⟩
  · have swept := swept_run opened timed on early callers sound begun head within
    refine ⟨swept.clock, fun turn => ?_⟩
    obtain ⟨cutoff, back, left⟩ := swept.left turn
    refine ⟨cutoff, back, fun id job found held => ?_⟩
    obtain ⟨time, assigned⟩ := stamped (tick + 1) id job found held
    exact ⟨time, assigned, left id job time found held assigned⟩
  · obtain ⟨_, _, view⟩ := sound_run opened timed.steady callers count
    exact view.ahead.clock_le_nextSweep
  · obtain ⟨later, same⟩ := Nat.exists_eq_add_of_le after
    have atWork := atWork_run opened timed on early callers sound begun count within
    have young : Young plan unit timeout (state count) := by
      rw [same] at within ⊢
      exact young_run opened timed on early callers sound begun head later within
    intro id job found held
    obtain ⟨time, assigned⟩ := stamped count id job found held
    refine ⟨time, assigned, fun clock turn reached inside => ?_⟩
    have bound := young id job time found held assigned
    obtain ⟨ordinary, onTime⟩ := Instant.plus?_eq_some.1 (timed.inStep clock turn inside)
    rw [Instant.since_of_isLeap_eq_false ordinary (atWork.common id job time found held assigned),
      onTime]
    have ahead := Nat.mul_le_mul_right unit reached
    simp only [Plan.sweepInterval] at bound
    omega

theorem inCalendar_millisecond (clock : Nat) :
    firstSecond ≤ ((min clock 3600000 / 1000 : Nat) : Int)
      ∧ ((min clock 3600000 / 1000 : Nat) : Int) ≤ lastSecond := by
  simp only [firstSecond, lastSecond]
  omega

theorem inSecond_millisecond (clock : Nat) : min clock 3600000 % 1000 * 1000000 < 1000000000 := by
  omega

/-- So many milliseconds after the beginning of 1970, for an hour. -/
def millisecond (clock : Nat) : Instant where
  seconds := (min clock 3600000 / 1000 : Nat)
  nanos := min clock 3600000 % 1000 * 1000000
  inCalendar := inCalendar_millisecond clock
  inSecond := .inl (inSecond_millisecond clock)

/-- A shift without an assigner; a job may be assigned for five seconds, and every ten seconds there
is a sweep. -/
def briskPlan : Plan where
  settings := { Settings.standard with jobTimeoutMs := some 5000, sweepIntervalMs := 10000 }
  hasAssigner := false
  hasSweeper := true
  stop := 30000
  moment := fun clock _ => .calm (millisecond clock)

theorem keepsTime_briskPlan : briskPlan.KeepsTime 1000000 3600000 := by
  have common (clock : Nat) : (millisecond clock).isLeap = false :=
    decide_eq_false (by simp only [millisecond]; omega)
  have total (clock : Nat) : (millisecond clock).totalNanos = min clock 3600000 * 1000000 := by
    simp only [millisecond, Instant.totalNanos]
    omega
  refine ⟨⟨fun clock _ => common clock, ?_⟩, ?_, fun _ _ _ => rfl⟩
  · intro clock later turn next order _
    show (millisecond later).before (millisecond clock) = false
    simp only [Instant.before, Bool.or_eq_false_iff, Bool.and_eq_false_imp,
      decide_eq_true_eq, decide_eq_false_iff_not]
    simp only [millisecond]
    omega
  · intro clock turn within
    refine Instant.plus?_eq_some.2 ⟨common clock, ?_⟩
    show (millisecond clock).totalNanos = (millisecond 0).totalNanos + _
    rw [total, total]
    omega

/-- After seven seconds somebody asks for an assignment. -/
def assigningVisit : Visit Unit :=
  ⟨7000, fun moment desk => ((), (Operation.assign.perform moment desk).2)⟩

/-- The beginning of that shift at the tangled board, whose jobs have been assigned since its
beginning but for one that waits. -/
def briskShift : Shift Unit :=
  opening briskPlan (.onFile briskPlan.settings .tangled) [assigningVisit]

theorem sweepsSound_briskShift (count : Nat) :
    SweepsSound briskPlan (briskShift.runFor briskPlan count) := by
  -- the shift ends after seven steps, and no job is worn after any of them
  have ended : ((briskShift.runFor briskPlan 7).advance briskPlan).isNone = true := by
    decide +kernel
  have unworn : ∀ count ∈ List.range 8,
      ∀ job ∈ (briskShift.runFor briskPlan count).desk.jobs, ¬ job.IsWorn := by
    decide +kernel
  have same : ∃ early ∈ List.range 8,
      briskShift.runFor briskPlan count = briskShift.runFor briskPlan early := by
    rcases Nat.lt_or_ge count 8 with before | after
    · exact ⟨count, List.mem_range.2 before, rfl⟩
    · obtain ⟨more, rfl⟩ := Nat.exists_eq_add_of_le (Nat.le_of_succ_le after)
      exact ⟨7, by decide, runFor_of_ended (Option.isNone_iff_eq_none.1 ended) more⟩
  obtain ⟨early, member, same⟩ := same
  intro _
  rw [same]
  exact Desk.not_wornTimedOut (unworn early member) _

/-- The second sweep gives the old assignments back. The new one stays, and is within the bound for
the ten seconds that follow. -/
theorem sweep_bounds_age_briskShift :
    Desk.start briskPlan.settings (Desk.onFile briskPlan.settings .tangled).disk
        (Desk.onFile briskPlan.settings .tangled).ids =
          .ok (.onFile briskPlan.settings .tangled)
      ∧ briskPlan.KeepsTime 1000000 3600000
      ∧ assigningVisit.IsCaller
      ∧ (∀ count, SweepsSound briskPlan (briskShift.runFor briskPlan count))
      ∧ (briskShift.runFor briskPlan 5).clock = 10000
      ∧ ∃ job time, (briskShift.runFor briskPlan 5).desk.board.jobs.get? (Uuid.ofNat 14) = some job
        ∧ job.status = .assigned ∧ job.assignedAt = some time
        ∧ (millisecond 20000).since time ≤ 15000000000 := by
  have opened := Desk.start_onFile briskPlan.settings
    (show Board.tangled.Storable by decide +kernel)
  have common : ∀ id job time, Board.tangled.jobs.get? id = some job → job.status = .assigned →
      job.assignedAt = some time → time.isLeap = false := by
    have each : ∀ job ∈ Board.tangled.jobs.records,
        (job.assignedAt.all fun time => !time.isLeap) = true := by
      decide
    intro id job time found _ stamped
    simpa [stamped] using each job (Ledger.mem_records_iff.2 ⟨id, found⟩)
  have callers : ∀ visit ∈ [assigningVisit], visit.IsCaller := by
    intro visit member
    rw [List.mem_singleton.1 member]
    exact fun moment desk => ⟨[(.assign, moment.mishaps)], rfl⟩
  have on : briskPlan.settings.jobTimeout = some 5000000000 := by decide +kernel
  have early : ((briskPlan.moment 0 0).now.minus? 5000000000).isSome = true := by decide +kernel
  have first : briskShift.queue.head? = some .sweeper := by decide +kernel
  have bounds := (sweep_bounds_age opened ⟨rfl, rfl, rfl⟩ common rfl (by decide)
    keepsTime_briskPlan on early callers sweepsSound_briskShift).2 0 first
  have reached : (briskShift.runFor briskPlan 5).clock = 10000 := by decide +kernel
  have assigned : ((briskShift.runFor briskPlan 5).desk.board.jobs.get? (Uuid.ofNat 14)).map
      Job.status = some .assigned := by
    decide +kernel
  have next : (briskShift.runFor briskPlan 5).nextSweep = 20000 := by decide +kernel
  obtain ⟨job, found, held⟩ := Option.map_eq_some_iff.1 assigned
  obtain ⟨_, young⟩ := bounds.2 5 (by decide) (by
    show (briskShift.runFor briskPlan 5).clock ≤ 3600000
    omega)
  obtain ⟨time, stamped, bound⟩ := young (Uuid.ofNat 14) job found held
  refine ⟨opened, keepsTime_briskPlan, callers _ (List.mem_singleton_self _),
    sweepsSound_briskShift, reached, job, time, found, held, stamped,
    bound 20000 0 (Nat.le_of_eq next.symm) (by decide)⟩

end Shift

end Background

end JobDispatch
