import JobDispatch.Proofs.Desk.Draining
import JobDispatch.Proofs.Time.Instant
set_option autoImplicit false

/- Which engines are too old, in exact numbers. The calendar is shorter than the longest span that
ages are compared with, so that a timeout that cannot be compared is longer than any age. The list
of stale engines and the choice of an engine for a job draw the same line. -/
namespace JobDispatch

open Time

/-- Two times of the calendar are less than the longest span apart. -/
theorem Time.Instant.totalNanos_sub_lt_longestSpan (later earlier : Instant) :
    later.totalNanos - earlier.totalNanos < longestSpan := by
  obtain ⟨-, last⟩ := later.inCalendar
  obtain ⟨first, -⟩ := earlier.inCalendar
  have within := later.inSecond
  simp only [firstSecond, lastSecond] at first last
  simp only [totalNanos, longestSpan]
  omega

/-- Nanoseconds since the last heartbeat, negative where the heartbeat lies ahead. -/
def Engine.age (now : Instant) (engine : Engine) : Int :=
  now.totalNanos - engine.lastHeartbeat.totalNanos

/-- Outside of leap seconds an engine is alive while its age is below the timeout, however long the
timeout is. -/
theorem Engine.isAlive_eq_decide {engine : Engine} {now : Instant} (common : now.isLeap = false)
    (heard : engine.lastHeartbeat.isLeap = false) (timeout : Nat) :
    engine.isAlive now timeout = decide (engine.age now < timeout) := by
  rw [isAlive, Instant.since_of_isLeap_eq_false common heard, ← age]
  by_cases endless : longestSpan < timeout
  · have bound : engine.age now < longestSpan := Instant.totalNanos_sub_lt_longestSpan ..
    have young : engine.age now < timeout := by omega
    rw [decide_eq_true endless, decide_eq_true young, Bool.true_or]
  · rw [decide_eq_false endless, Bool.false_or]

theorem EnginePool.stale_eq_filter {engines : EnginePool} {now : Instant}
    (common : now.isLeap = false)
    (heard : ∀ engine ∈ engines.records, engine.lastHeartbeat.isLeap = false) (timeout : Nat) :
    engines.stale now timeout =
      engines.records.filter fun engine => decide ((timeout : Int) ≤ engine.age now) := by
  refine List.filter_congr fun engine member => ?_
  rw [Engine.isAlive_eq_decide common (heard engine member), ← decide_not]
  exact decide_eq_decide.2 Int.not_lt

theorem Pairing.candidates_of_endless {rule : Pairing} (off : rule.timeout = none)
    (engines : EnginePool) (now : Instant) : rule.candidates engines now = engines.eligible := by
  refine List.filter_eq_self.2 fun engine _ => ?_
  rw [accepts, off, Option.all_none]

namespace Desk

variable {desk after : Desk} {moment : Moment}

/-- The engines that could take a job as far as they know, and are not listed as stale. -/
def freeEngines (desk : Desk) (now : Instant) : List Engine :=
  desk.engines.filter fun engine => engine.isEligible ∧ engine.id ∉ desk.staleEngines now

/-- An engine is listed by its id exactly if the rule for pairs passes it over. -/
theorem mem_staleEngines_iff (keyed : desk.board.Keyed) {engine : Engine}
    (known : engine ∈ desk.engines) (now : Instant) :
    engine.id ∈ desk.staleEngines now ↔ desk.settings.pairing.accepts now engine = false := by
  rw [staleEngines, Pairing.accepts]
  cases desk.settings.pairing.timeout with
  | none => simp
  | some timeout =>
    simp only [EnginePool.stale, List.mem_map, List.mem_filter, Bool.not_eq_true', Option.all_some]
    constructor
    · rintro ⟨other, ⟨member, late⟩, same⟩
      have equal : other = engine := List.inj_on_of_nodup_map keyed.nodup_engines member known same
      rwa [equal] at late
    · exact fun late => ⟨engine, ⟨known, late⟩, rfl⟩

/-- The rule for pairs leaves the engines that are not listed. -/
theorem candidates_eq_freeEngines (keyed : desk.board.Keyed) (now : Instant) :
    desk.settings.pairing.candidates desk.board.engines now = desk.freeEngines now := by
  rw [Pairing.candidates, EnginePool.eligible, List.filter_filter, freeEngines]
  refine List.filter_congr fun engine member => ?_
  rw [Bool.eq_iff_iff, decide_eq_true_iff, mem_staleEngines_iff keyed member, Bool.not_eq_false,
    Bool.and_eq_true, and_comm]

theorem mem_map_freeEngines {engine : Engine} (known : engine ∈ desk.engines)
    (eligible : engine.isEligible = true) (now : Instant) :
    engine.id ∈ (desk.freeEngines now).map Engine.id ↔ engine.id ∉ desk.staleEngines now := by
  simp only [freeEngines, List.mem_map, List.mem_filter, decide_eq_true_eq]
  constructor
  · rintro ⟨other, ⟨_, _, passed⟩, same⟩
    rwa [same] at passed
  · exact fun passed => ⟨engine, ⟨known, eligible, passed⟩, rfl⟩

/-- An attempt gives a job only to an engine that is free and not listed. -/
theorem mem_freeEngines_of_assign (keyed : desk.board.Keyed) {job : Uuid} {name : String}
    (assigned : desk.assign moment = (.ok (.assigned job name), after)) :
    ∃ engine ∈ desk.freeEngines moment.now, engine.id = name := by
  rcases keyed.assignNext_cases desk.settings.pairing moment.now moment.now with
    ⟨_, idle⟩ | ⟨_, _, _, idle⟩ | ⟨oldest, engine, first, chosen, bound⟩
  · cases (assign_eq_of_idle idle rfl).symm.trans assigned
  · cases (assign_eq_of_idle idle rfl).symm.trans assigned
  · refine ⟨engine, ?_, ?_⟩
    · rw [← candidates_eq_freeEngines keyed]
      exact Pairing.mem_of_choose chosen
    · simp only [assign, bound, AssignmentOutcome.isAssigned, AssignmentOutcome.pair?,
        Option.isSome_some, if_true] at assigned
      split at assigned
      · cases assigned
      · cases assigned
        rfl

/-- An attempt with a job that waits finds no engine exactly if none is free and not listed. -/
theorem noEligibleEngines_iff (keyed : desk.board.Keyed) {job : Job}
    (first : desk.board.jobs.firstPending = some job) (moment : Moment) :
    (desk.assign moment).1 = .ok (.noEligibleEngines job.id) ↔
      desk.freeEngines moment.now = [] := by
  rw [← candidates_eq_freeEngines keyed]
  rcases keyed.assignNext_cases desk.settings.pairing moment.now moment.now with
    ⟨none, _⟩ | ⟨other, same, none, idle⟩ | ⟨oldest, engine, _, chosen, bound⟩
  · cases first.symm.trans none
  · cases first.symm.trans same
    rw [assign_eq_of_idle idle rfl]
    exact iff_of_true rfl none
  · refine iff_of_false ?_ (List.ne_nil_of_mem (Pairing.mem_of_choose chosen))
    intro told
    simp only [assign, bound, AssignmentOutcome.isAssigned, AssignmentOutcome.pair?,
      Option.isSome_some, if_true] at told
    split at told
    · cases told
    · cases told

/-- As long as saves succeed and enough jobs wait, the engines that are free and not listed get one
each. -/
theorem assignAll_freeEngines (keyed : desk.board.Keyed) (saves : desk.SavesSucceed moment)
    (enough : (desk.freeEngines moment.now).length ≤ desk.board.jobs.pendingCount) :
    ∃ pairs after, desk.assignAll moment = (.ok pairs, after)
      ∧ ((desk.freeEngines moment.now).map Engine.id).Perm (pairs.map Prod.snd) := by
  obtain ⟨pairs, staged, drains⟩ := keyed.exists_drains desk.settings.pairing moment.now
  obtain ⟨after, _, _, drained⟩ := assignUpTo_of_drains drains keyed saves rfl rfl rfl
  have count := drains.length_pairs keyed
  have engines := drains.candidates_perm keyed
  rw [candidates_eq_freeEngines keyed] at count engines
  rw [JobLedger.length_waiting, Nat.min_eq_right enough] at count
  -- as many engines were taken as there were, so that none could take a job in the end
  have none : (desk.settings.pairing.candidates staged.engines moment.now).map Engine.id = [] := by
    have lengths := engines.length_eq
    rw [List.length_append, List.length_map, List.length_map, count] at lengths
    exact List.length_eq_zero_iff.1 (by omega)
  rw [none, List.append_nil] at engines
  exact ⟨pairs, after, drained _ (count.trans_le enough), engines⟩

end Desk

namespace Session

/-- Outside of leap seconds the stale engines of any pool are those whose age is no less than the
timeout, in exact numbers and in their order, and the rule for pairs with this timeout passes over
just these. A desk lists the ids of those that its own timeout makes stale; without a timeout none
is listed and none is passed over. Whatever jobs are on file, it gives them only to engines that are
not listed, and finds none for a job only if all are listed that could else take it. As long as
saves succeed and enough jobs wait, each engine that could take a job gets one exactly if it is not
listed. -/
theorem stale_engines_exact {settings : Settings} {disk : Disk} {ids : IdSupply} {desk : Desk}
    (opened : Desk.start settings disk ids = .ok desk) (turns : List Turn) (moment : Moment)
    (common : moment.now.isLeap = false)
    (heard : ∀ engine ∈ ((opening desk).run turns).desk.engines,
      engine.lastHeartbeat.isLeap = false) :
    (∀ (engines : EnginePool) (now : Instant), now.isLeap = false →
        (∀ engine ∈ engines.records, engine.lastHeartbeat.isLeap = false) →
        ∀ threshold,
          (∀ timeout : Nat,
            engines.stale now timeout =
                engines.records.filter (fun engine => decide ((timeout : Int) ≤ engine.age now))
              ∧ (⟨threshold, some timeout⟩ : Pairing).candidates engines now =
                engines.eligible.filter fun engine => engine ∉ engines.stale now timeout)
          ∧ (⟨threshold, none⟩ : Pairing).candidates engines now = engines.eligible)
      ∧ let final := ((opening desk).run turns).desk
        let listed := final.staleEngines moment.now
        let free := final.engines.filter fun engine => engine.isEligible ∧ engine.id ∉ listed
        (∀ ms, final.settings.engineTimeoutMs = some ms → listed =
            (final.engines.filter fun engine =>
              decide ((nanosOfMs ms : Int) ≤ engine.age moment.now)).map Engine.id)
          ∧ (final.settings.engineTimeoutMs = none → listed = []
            ∧ free = final.engines.filter Engine.isEligible)
          ∧ ∀ jobs : JobLedger, (∀ id job, jobs.get? id = some job → id = job.id) →
            let stocked : Desk := { final with board := ⟨jobs, final.board.engines⟩ }
            (∀ job name after, stocked.assign moment = (.ok (.assigned job name), after) →
                ∃ engine ∈ free, engine.id = name)
              ∧ (∀ job, jobs.firstPending = some job →
                ((stocked.assign moment).1 = .ok (.noEligibleEngines job.id) ↔ free = []))
              ∧ (stocked.SavesSucceed moment → free.length ≤ jobs.pendingCount →
                ∃ pairs after, stocked.assignAll moment = (.ok pairs, after)
                  ∧ ∀ engine ∈ final.engines, engine.isEligible = true →
                    ((∃ job, (job, engine.id) ∈ pairs) ↔ engine.id ∉ listed)) := by
  refine ⟨fun engines now common heard threshold => ⟨fun timeout => ⟨?_, ?_⟩, ?_⟩, ?_⟩
  · exact EnginePool.stale_eq_filter common heard timeout
  · refine List.filter_congr fun engine member => ?_
    have known : engine ∈ engines.records := (List.mem_filter.1 member).1
    simp [Pairing.accepts, EnginePool.stale, known]
  · exact Pairing.candidates_of_endless rfl engines now
  · intro final listed free
    refine ⟨fun ms on => ?_, fun off => ?_, fun jobs own => ?_⟩
    · have timeout : final.settings.pairing.timeout = some (nanosOfMs ms) :=
        congrArg (Option.map nanosOfMs) on
      show final.staleEngines moment.now = _
      rw [Desk.staleEngines, timeout]
      exact congrArg _ (EnginePool.stale_eq_filter common heard _)
    · have timeout : final.settings.pairing.timeout = none := congrArg (Option.map nanosOfMs) off
      have none : listed = [] := by
        show final.staleEngines moment.now = _
        rw [Desk.staleEngines, timeout]
      refine ⟨none, List.filter_congr fun engine _ => ?_⟩
      simp [none]
    · intro stocked
      have keyed : stocked.board.Keyed :=
        ⟨own, (kept_run (Desk.kept_of_start opened) turns).1.storable.keyed.engines⟩
      refine ⟨fun job name after assigned => Desk.mem_freeEngines_of_assign keyed assigned,
        fun job first => Desk.noEligibleEngines_iff keyed first moment, fun saves enough => ?_⟩
      obtain ⟨pairs, after, drained, engines⟩ := Desk.assignAll_freeEngines keyed saves enough
      refine ⟨pairs, after, drained, fun engine known eligible => ?_⟩
      have free : engine.id ∈ (stocked.freeEngines moment.now).map Engine.id ↔
          engine.id ∉ listed := Desk.mem_map_freeEngines known eligible moment.now
      rw [← free, engines.mem_iff]
      simp

/-- A run in which two engines report, one at the beginning of 1970 and one 200 seconds later, when
a job is submitted too. -/
def twoAges : List Turn :=
  let later : Moment := .calm ⟨200, 0, by decide, by decide⟩
  [.ask (.heartbeat ⟨"early", .idle, Binary64.zero false⟩) .first,
    .ask (.benchmark "early" (Binary64.zero false)) .first,
    .ask (.heartbeat ⟨"late", .idle, Binary64.zero false⟩) later,
    .ask (.benchmark "late" (Binary64.zero false)) later,
    .ask (.submit ⟨"in", "out", Binary64.zero false, 1⟩) later]

/-- After 300 seconds, which is just the timeout, the first engine is listed and passed over, and
the second one gets the job. -/
theorem stale_engines_exact_twoAges :
    let final := ((opening (.initial .standard)).run twoAges).desk
    let moment : Moment := .calm ⟨300, 0, by decide, by decide⟩
    Desk.start .standard (Desk.initial .standard).disk (Desk.initial .standard).ids =
        .ok (.initial .standard)
      ∧ moment.now.isLeap = false
      ∧ (∀ engine ∈ final.engines, engine.lastHeartbeat.isLeap = false)
      ∧ final.SavesSucceed moment
      ∧ final.staleEngines moment.now = ["early"]
      ∧ ∃ pairs after, final.assignAll moment = (.ok pairs, after)
        ∧ (∃ job, (job, "late") ∈ pairs) ∧ ¬ ∃ job, (job, "early") ∈ pairs := by
  intro final moment
  have opened := Desk.start_initial .standard
  have common : moment.now.isLeap = false := by decide
  have heard : ∀ engine ∈ final.engines, engine.lastHeartbeat.isLeap = false := by
    have each : (final.engines.all fun engine => !engine.lastHeartbeat.isLeap) = true := by
      decide +kernel
    simpa using each
  have clear : final.disk.IsClear := ⟨by decide +kernel, by decide +kernel, by decide +kernel⟩
  have saves : final.SavesSucceed moment := Desk.savesSucceed_calm clear moment.now
  have keyed : final.board.Keyed :=
    (kept_run (Desk.kept_of_start opened) twoAges).1.storable.keyed
  obtain ⟨listed, -, stocked⟩ := (stale_engines_exact opened twoAges moment common heard).2
  have stale : final.staleEngines moment.now = ["early"] :=
    (listed 300000 (by decide +kernel)).trans (by decide +kernel)
  obtain ⟨pairs, after, drained, given⟩ :=
    (stocked final.board.jobs keyed.jobs).2.2 saves (by decide +kernel)
  have able : final.engines.map (fun engine => (engine.id, engine.isEligible)) =
      [("early", true), ("late", true)] := by
    decide +kernel
  have named (name : String) (member : (name, true) ∈ [("early", true), ("late", true)]) :
      (∃ job, (job, name) ∈ pairs) ↔ name ∉ final.staleEngines moment.now := by
    rw [← able, List.mem_map] at member
    obtain ⟨engine, known, same⟩ := member
    obtain ⟨equal, eligible⟩ := Prod.mk.inj same
    rw [← equal]
    exact given engine known eligible
  refine ⟨opened, common, heard, saves, stale, pairs, after, drained, ?_, ?_⟩
  · rw [named "late" (by decide), stale]
    decide
  · rw [named "early" (by decide), stale]
    decide

end Session

end JobDispatch
