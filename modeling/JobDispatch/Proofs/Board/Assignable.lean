import JobDispatch.Proofs.Board.Operation
import JobDispatch.Proofs.Time.Instant
set_option autoImplicit false

/- When an attempt to start a job gets somewhere: a job waits, and an engine could take it. The
answer of an operation tells whether it can have brought this about, and time alone cannot. -/
namespace JobDispatch

open Time

namespace Pairing

/-- The engine gets no younger as time goes on: ages are not looked at, or its last heartbeat was
not in a leap second. The age of such a heartbeat jumps back at midnight. -/
def isSteady (rule : Pairing) (engine : Engine) : Bool :=
  rule.timeout.isNone || !engine.lastHeartbeat.isLeap

/-- The engine could take a job, and has not come to this by time alone. -/
def trusts (rule : Pairing) (now : Instant) (engine : Engine) : Bool :=
  rule.isSteady engine && rule.accepts now engine

theorem trusts_earlier {rule : Pairing} {engine : Engine} {earlier later : Instant}
    (early : earlier.isLeap = false) (late : later.isLeap = false)
    (order : later.before earlier = false) (trusted : rule.trusts later engine = true) :
    rule.trusts earlier engine = true := by
  simp only [trusts, Bool.and_eq_true] at trusted ⊢
  obtain ⟨steady, accepted⟩ := trusted
  refine ⟨steady, ?_⟩
  cases limit : rule.timeout with
  | none => simp only [accepts, limit, Option.all_none]
  | some timeout =>
    have heard : engine.lastHeartbeat.isLeap = false := by
      simpa [isSteady, limit] using steady
    have span := Instant.totalNanos_le_of_before_eq_false early order
    simp only [accepts, limit, Option.all_some, Engine.isAlive, Bool.or_eq_true,
      decide_eq_true_eq] at accepted ⊢
    refine accepted.imp_right fun young => ?_
    rw [Instant.since_of_isLeap_eq_false late heard] at young
    rw [Instant.since_of_isLeap_eq_false early heard]
    omega

end Pairing

namespace Board

/-- A job waits, and an idle engine with a benchmark passes the judgement. -/
def Assignable (judge : Engine → Bool) (board : Board) : Prop :=
  (∃ job ∈ board.jobs.records, job.status = .pending)
    ∧ ∃ engine ∈ board.engines.records, engine.isEligible = true ∧ judge engine = true

variable {board staged after : Board} {rule : Pairing} {now : Instant}

theorem Assignable.imp {judge other : Engine → Bool} (assignable : board.Assignable judge)
    (passes : ∀ engine, judge engine = true → other engine = true) : board.Assignable other := by
  obtain ⟨waiting, engine, member, eligible, judged⟩ := assignable
  exact ⟨waiting, engine, member, eligible, passes engine judged⟩

/-- An attempt comes to nothing and changes nothing where no job waits or no engine could take one.
-/
theorem assignNext_of_not_assignable (stuck : ¬ board.Assignable (rule.accepts now)) :
    ∃ outcome, outcome.isAssigned = false
      ∧ board.assignNext rule now now = (.ok outcome, board) := by
  cases first : board.jobs.firstPending with
  | none => exact ⟨.noPendingJobs, rfl, by simp only [assignNext, first]⟩
  | some job =>
    obtain ⟨waiting, _, found⟩ := JobLedger.firstPending_spec first
    have none : rule.choose job.jobSize (rule.candidates board.engines now) = none := by
      rw [Pairing.choose_eq_none_iff, Pairing.candidates, EnginePool.eligible, List.filter_filter,
        List.filter_eq_nil_iff]
      intro engine member passes
      rw [Bool.and_eq_true] at passes
      exact stuck ⟨⟨job, Ledger.mem_records_iff.2 ⟨_, found⟩, waiting⟩, engine, member, passes.2,
        passes.1⟩
    exact ⟨.noEligibleEngines job.id, rfl, by simp only [assignNext, first, none]⟩

/-- An attempt that comes to nothing finds no job, or no engine that could take one. -/
theorem not_assignable_of_assignNext {outcome : AssignmentOutcome}
    (attempt : board.assignNext rule now now = (.ok outcome, staged))
    (nothing : outcome.isAssigned = false) : ¬ board.Assignable (rule.accepts now) := by
  rintro ⟨⟨job, member, waiting⟩, engine, known, eligible, accepted⟩
  simp only [assignNext] at attempt
  split at attempt
  · rename_i none
    simp only [JobLedger.firstPending, List.find?_eq_none, decide_eq_true_eq] at none
    exact none job member waiting
  · split at attempt
    · rename_i none
      rw [Pairing.choose_eq_none_iff] at none
      have candidate : engine ∈ rule.candidates board.engines now := by
        simp only [Pairing.candidates, EnginePool.eligible, List.mem_filter]
        exact ⟨⟨known, eligible⟩, accepted⟩
      rw [none] at candidate
      cases candidate
    · split at attempt
      · cases attempt
      · split at attempt
        · cases attempt
        · cases attempt
          cases nothing

/-- An attempt that brings a job and an engine together finds the engine on file, and able to take
the job. -/
theorem engine_of_assignNext {job : Uuid} {name : String} (storable : board.Storable)
    (attempt : board.assignNext rule now now = (.ok (.assigned job name), staged)) :
    ∃ engine, board.engines.get? name = some engine ∧ engine.isEligible = true
      ∧ rule.accepts now engine = true := by
  rcases storable.keyed.assignNext_cases rule now now with
    ⟨_, idle⟩ | ⟨_, _, _, idle⟩ | ⟨oldest, engine, first, chosen, bound⟩
  · cases attempt.symm.trans idle
  · cases attempt.symm.trans idle
  · cases attempt.symm.trans bound
    have fit := storable.keyed.fit first chosen
    exact ⟨engine, fit.known, fit.eligible, fit.accepted⟩

/-- No job began to wait, and no engine became one that could take a job. -/
structure NothingNew (before after : Board) : Prop where
  jobs : ∀ id job, after.jobs.get? id = some job → job.status = .pending →
    before.jobs.get? id = some job
  engines : ∀ name engine, after.engines.get? name = some engine → engine.isEligible = true →
    before.engines.get? name = some engine

theorem NothingNew.refl (board : Board) : NothingNew board board :=
  ⟨fun _ _ found _ => found, fun _ _ known _ => known⟩

/-- Where nothing is new, no engine can be found for a job that could not before. -/
theorem NothingNew.assignable (old : NothingNew board after) {judge : Engine → Bool}
    (assignable : after.Assignable judge) : board.Assignable judge := by
  obtain ⟨⟨job, member, waiting⟩, engine, inside, eligible, judged⟩ := assignable
  obtain ⟨id, found⟩ := Ledger.mem_records_iff.1 member
  obtain ⟨name, known⟩ := Ledger.mem_records_iff.1 inside
  exact ⟨⟨job, Ledger.mem_records_iff.2 ⟨id, old.jobs id job found waiting⟩, waiting⟩, engine,
    Ledger.mem_records_iff.2 ⟨name, old.engines name engine known eligible⟩, eligible, judged⟩

/-- An assignment takes away a job that waits and an engine that is idle. -/
theorem Change.nothingNew_of_bound {id : Uuid} {name : String}
    (change : Change now board (.bound id name) after) : NothingNew board after := by
  cases change with
  | bound first chosen found waiting known idle =>
    constructor
    · intro other job there pending
      rcases Ledger.get?_update_eq_some.1 there with ⟨_, _, _, same⟩ | ⟨_, earlier⟩
      · subst same
        cases pending
      · exact earlier
    · intro other engine there eligible
      rcases Ledger.get?_update_eq_some.1 there with ⟨_, _, _, same⟩ | ⟨_, earlier⟩
      · subst same
        cases eligible
      · exact earlier

/-- The report of an engine that is not idle then brings in no engine that could take a job. -/
theorem Change.nothingNew_of_reported {report : Heartbeat}
    (change : Change now board (.reported report) after)
    (taken : ∀ engine, after.engines.get? report.engineId = some engine →
      engine.status ≠ .idle) : NothingNew board after := by
  have apart (name : String) (engine : Engine) (known : after.engines.get? name = some engine)
      (eligible : engine.isEligible = true) : name ≠ report.engineId := by
    intro same
    subst same
    simp only [Engine.isEligible, Bool.and_eq_true, decide_eq_true_eq] at eligible
    exact taken engine known eligible.1
  cases change with
  | registered accepted unknown =>
    refine ⟨fun _ _ found _ => found, ?_⟩
    intro name engine known eligible
    have other := apart name engine known eligible
    rcases Ledger.get?_put_eq_some.1 known with ⟨same, _⟩ | ⟨_, earlier⟩
    · exact absurd same other
    · exact earlier
  | refreshed accepted there =>
    refine ⟨fun _ _ found _ => found, ?_⟩
    intro name engine known eligible
    have other := apart name engine known eligible
    rwa [Ledger.get?_update_of_ne _ other] at known

/-- The last heartbeat of an engine is the one it had before the step, or the time of the step. -/
theorem Change.lastHeartbeat {event : Event} (change : Change now board event after) {name : String}
    {engine : Engine} (known : after.engines.get? name = some engine) :
    engine.lastHeartbeat = now
      ∨ ∃ old, board.engines.get? name = some old ∧ old.lastHeartbeat = engine.lastHeartbeat := by
  have released {id : Uuid} {holder : Option String}
      (known : (board.engines.releaseFrom id holder).get? name = some engine) :
      ∃ old, board.engines.get? name = some old ∧ old.lastHeartbeat = engine.lastHeartbeat := by
    rcases EnginePool.get?_releaseFrom_eq_some.1 known with ⟨old, _, there, same⟩ | ⟨_, there⟩
    · subst same
      refine ⟨old, there, ?_⟩
      simp only [Engine.freedFrom]
      split <;> rfl
    · exact ⟨engine, there, rfl⟩
  cases change with
  | submitted accepted => exact .inr ⟨engine, known, rfl⟩
  | registered accepted unknown =>
    rcases Ledger.get?_put_eq_some.1 known with ⟨_, same⟩ | ⟨_, there⟩
    · subst same
      exact .inl rfl
    · exact .inr ⟨engine, there, rfl⟩
  | refreshed accepted reporter =>
    rcases Ledger.get?_update_eq_some.1 known with ⟨_, _, _, same⟩ | ⟨_, there⟩
    · subst same
      exact .inl rfl
    · exact .inr ⟨engine, there, rfl⟩
  | measured amount measuredEngine =>
    rcases Ledger.get?_update_eq_some.1 known with ⟨old, own, there, same⟩ | ⟨_, there⟩
    · subst own same
      exact .inr ⟨old, there, rfl⟩
    · exact .inr ⟨engine, there, rfl⟩
  | bound first chosen found waiting taker idle =>
    rcases Ledger.get?_update_eq_some.1 known with ⟨old, own, there, same⟩ | ⟨_, there⟩
    · subst own same
      exact .inr ⟨old, there, rfl⟩
    · exact .inr ⟨engine, there, rfl⟩
  | completed found held written => exact .inr (released known)
  | failed found held counted => exact .inr (released known)

/-- Over a chain of steps it is the one it had at the beginning, or the time of one of the steps. -/
theorem History.lastHeartbeat {log : Log} (history : History board log after) {name : String}
    {engine : Engine} (known : after.engines.get? name = some engine) :
    (∃ entry ∈ log, engine.lastHeartbeat = entry.1)
      ∨ ∃ old, board.engines.get? name = some old ∧ old.lastHeartbeat = engine.lastHeartbeat := by
  induction history generalizing engine with
  | start => exact .inr ⟨engine, known, rfl⟩
  | step before change ih =>
    rcases change.lastHeartbeat known with reported | ⟨old, there, same⟩
    · exact .inl ⟨_, List.mem_append_right _ (List.mem_singleton_self _), reported⟩
    · rcases ih there with ⟨entry, member, reported⟩ | ⟨first, known, equal⟩
      · exact .inl ⟨entry, List.mem_append_left _ member, same.symm.trans reported⟩
      · exact .inr ⟨first, known, equal.trans same⟩

/-- Every engine whose last heartbeat lies in a leap second had this heartbeat at the start. -/
def KeepsLeaps (start board : Board) : Prop :=
  ∀ name engine, board.engines.get? name = some engine → engine.lastHeartbeat.isLeap = true →
    ∃ old, start.engines.get? name = some old ∧ old.lastHeartbeat = engine.lastHeartbeat

/-- Nothing that is accepted outside of leap seconds brings in a heartbeat inside of one. -/
theorem KeepsLeaps.later {start : Board} {events : List Event} (leaps : KeepsLeaps start board)
    (history : History board (Log.at now events) after) (common : now.isLeap = false) :
    KeepsLeaps start after := by
  intro name engine known leap
  rcases history.lastHeartbeat known with ⟨entry, member, reported⟩ | ⟨old, there, same⟩
  · obtain ⟨event, _, equal⟩ := List.mem_map.1 member
    subst equal
    rw [reported, common] at leap
    cases leap
  · obtain ⟨first, began, equal⟩ := leaps name old there (by rw [same, leap])
    exact ⟨first, began, equal.trans same⟩

end Board

/-- The answer leaves a wake-up for the assignment loop. -/
def Answer.wakes : Answer → Bool
  | attempted _ => false
  | reported status => status == .idle
  | reclaimed outcomes => !outcomes.isEmpty
  | _ => true

/-- Only an operation whose answer leaves a wake-up can bring in a job that waits or an engine that
could take one. -/
theorem Operation.nothingNew_of_transition {settings : Settings} {id : Uuid} {now : Instant}
    {board staged : Board} {operation : Operation} {answer : Answer} (storable : board.Storable)
    (accepted : operation.transition settings id now board = .ok (answer, staged))
    (silent : answer.wakes = false) : board.NothingNew staged := by
  cases operation with
  | heartbeat report =>
    rw [transition, step_eq_ok] at accepted
    obtain ⟨status, change, told⟩ := accepted
    obtain ⟨engines, taken, rest⟩ := bind_eq_ok.1 change
    obtain ⟨engine, found, equal⟩ := bind_eq_ok.1 rest
    cases equal
    subst told
    refine (Board.change_of_report (Setback.lift_eq_ok.1 taken)).nothingNew_of_reported ?_
    intro other known
    cases known.symm.trans (EnginePool.find_eq_ok.1 (Setback.lift_eq_ok.1 found))
    simpa [Answer.wakes] using silent
  | assign =>
    simp only [transition] at accepted
    rcases Board.assignNext_spec storable settings.pairing now with
      ⟨_, attempt⟩ | ⟨job, _, attempt⟩ | ⟨job, engine, after, attempt, change⟩
    · rw [attempt] at accepted
      cases accepted
      exact .refl board
    · rw [attempt] at accepted
      cases accepted
      exact .refl board
    · rw [attempt] at accepted
      cases accepted
      exact change.nothingNew_of_bound
  | reclaim =>
    simp only [transition] at accepted
    split at accepted
    · cases accepted
      exact .refl board
    · split at accepted
      · cases accepted
      · obtain ⟨outcomes, failed, told⟩ := step_eq_ok.1 accepted
        subst told
        have none : outcomes = [] := by simpa [Answer.wakes] using silent
        have jobs := Board.jobs_of_failAll failed
        subst none
        rw [← jobs] at failed
        cases failed
        exact .refl board
  | _ =>
    rw [transition, step_eq_ok] at accepted
    obtain ⟨_, _, told⟩ := accepted
    subst told
    cases silent

end JobDispatch
