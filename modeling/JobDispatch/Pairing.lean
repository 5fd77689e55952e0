import JobDispatch.Engine
set_option autoImplicit false

/- Which engine a job goes to. Large jobs go to the fastest engine that is free, small ones to the
slowest, so that the fast ones stay free for large jobs. -/
namespace JobDispatch

open Time

/-- The rank of an engine's benchmark in the total order; a missing benchmark counts as infinite. -/
def Engine.benchmarkRank (engine : Engine) : Int :=
  (engine.benchmarkTime.getD (Binary64.infinity false)).totalRank

/-- The first of the engines whose benchmark is least. -/
def fastest : List Engine → Option Engine
  | [] => none
  | engine :: engines =>
    match fastest engines with
    | none => some engine
    | some other =>
      if engine.benchmarkRank ≤ other.benchmarkRank then some engine else some other

/-- The last of the engines whose benchmark is greatest. -/
def slowest : List Engine → Option Engine
  | [] => none
  | engine :: engines =>
    match slowest engines with
    | none => some engine
    | some other =>
      if other.benchmarkRank < engine.benchmarkRank then some engine else some other

/-- How jobs and engines are paired: which jobs are small, and after how many nanoseconds without a
heartbeat an engine is skipped. -/
structure Pairing where
  threshold : Binary64
  timeout : Option Nat
deriving DecidableEq, Repr

namespace Pairing

/-- The engine for a job of a given size, out of those that could take it. -/
def choose (rule : Pairing) (jobSize : Binary64) (engines : List Engine) : Option Engine :=
  if jobSize.lt rule.threshold then slowest engines else fastest engines

/-- The engine has been heard of lately enough. -/
def accepts (rule : Pairing) (now : Instant) (engine : Engine) : Bool :=
  rule.timeout.all fun timeout => engine.isAlive now timeout

/-- The engines that could take a job, in their order. -/
def candidates (rule : Pairing) (engines : EnginePool) (now : Instant) : List Engine :=
  engines.eligible.filter (rule.accepts now)

end Pairing

theorem fastest_eq_none_iff (engines : List Engine) : fastest engines = none ↔ engines = [] := by
  cases engines with
  | nil => simp [fastest]
  | cons engine engines =>
    simp only [fastest, reduceCtorEq, iff_false]
    split
    · simp
    · split <;> simp

theorem slowest_eq_none_iff (engines : List Engine) : slowest engines = none ↔ engines = [] := by
  cases engines with
  | nil => simp [slowest]
  | cons engine engines =>
    simp only [slowest, reduceCtorEq, iff_false]
    split
    · simp
    · split <;> simp

theorem mem_of_fastest {engine : Engine} {engines : List Engine}
    (h : fastest engines = some engine) : engine ∈ engines := by
  induction engines with
  | nil => simp [fastest] at h
  | cons first engines ih =>
    simp only [fastest] at h
    split at h
    · simp_all
    · split at h <;> simp_all

theorem mem_of_slowest {engine : Engine} {engines : List Engine}
    (h : slowest engines = some engine) : engine ∈ engines := by
  induction engines with
  | nil => simp [slowest] at h
  | cons first engines ih =>
    simp only [slowest] at h
    split at h
    · simp_all
    · split at h <;> simp_all

end JobDispatch
