import JobDispatch.Job
set_option autoImplicit false

namespace JobDispatch

open Time

structure Heartbeat where
  engineId : String
  status : EngineStatus
  storageCapacity : Binary64
deriving DecidableEq, Repr

/-- The record of an engine. The benchmark is a time, so less is faster. -/
structure Engine where
  id : String
  status : EngineStatus
  storageCapacity : Binary64
  lastHeartbeat : Instant
  benchmarkTime : Option Binary64
  currentJob : Option Uuid
deriving DecidableEq, Repr

/-- The longest span that time differences are compared with, in nanoseconds. -/
def longestSpan : Nat := 0x7fffffffffffffff * 1000000

namespace Engine

/-- Idle, and its speed is known. -/
def isEligible (engine : Engine) : Bool :=
  decide (engine.status = .idle) && engine.benchmarkTime.isSome

/-- Its last heartbeat is less than a timeout ago. A timeout beyond the longest span never ends. -/
def isAlive (engine : Engine) (now : Instant) (timeout : Nat) : Bool :=
  decide (longestSpan < timeout) || decide (now.since engine.lastHeartbeat < timeout)

/-- An engine that reports for the first time. -/
def registered (heartbeat : Heartbeat) (now : Instant) : Engine where
  id := heartbeat.engineId
  status := heartbeat.status
  storageCapacity := heartbeat.storageCapacity
  lastHeartbeat := now
  benchmarkTime := none
  currentJob := none

/-- A later report. An engine bound to a job stays busy even if it reports to be idle. -/
def refresh (heartbeat : Heartbeat) (now : Instant) (engine : Engine) : Engine :=
  { engine with
    status := if engine.currentJob.isSome then .busy else heartbeat.status
    storageCapacity := heartbeat.storageCapacity
    lastHeartbeat := now }

def bind (job : Uuid) (engine : Engine) : Engine :=
  { engine with status := .busy, currentJob := some job }

def release (engine : Engine) : Engine := { engine with status := .idle, currentJob := none }

end Engine

structure EngineCounts where
  idle : Nat
  busy : Nat
deriving DecidableEq, Repr

/-- All engines under their ids, in the order in which they first reported. -/
abbrev EnginePool := Ledger String Engine

namespace EnginePool

def find (engines : EnginePool) (id : String) : Except Refusal Engine :=
  match engines.get? id with
  | some engine => .ok engine
  | none => .error (.unknownEngine id)

/-- Takes a report in: the engine is refreshed, or registered if it is new. -/
def report (engines : EnginePool) (heartbeat : Heartbeat) (now : Instant) :
    Except Refusal EnginePool := do
  requireText .engineId heartbeat.engineId
  requireAmount .storageCapacity heartbeat.storageCapacity
  match engines.get? heartbeat.engineId with
  | some _ => return engines.update heartbeat.engineId (Engine.refresh heartbeat now)
  | none => return engines.put heartbeat.engineId (Engine.registered heartbeat now)

/-- Records a benchmark; the number is looked at before the engine. -/
def benchmark (engines : EnginePool) (id : String) (time : Binary64) :
    Except Refusal EnginePool := do
  requireAmount .benchmarkTime time
  let _ ← find engines id
  return engines.update id fun engine => { engine with benchmarkTime := some time }

/-- The engines that are idle and have a benchmark. -/
def eligible (engines : EnginePool) : List Engine := engines.records.filter Engine.isEligible

/-- The engines whose last heartbeat is at least a timeout ago. -/
def stale (engines : EnginePool) (now : Instant) (timeout : Nat) : List Engine :=
  engines.records.filter fun engine => !engine.isAlive now timeout

/-- An idle engine takes a job. -/
def bind (engines : EnginePool) (id : String) (job : Uuid) : Except Refusal EnginePool := do
  let engine ← find engines id
  if engine.status = .idle then return engines.update id (Engine.bind job)
  else .error (.engineStatus id engine.status .idle)

/-- An engine becomes idle and unbound, whatever it was. -/
def release (engines : EnginePool) (id : String) : Except Refusal EnginePool := do
  let _ ← find engines id
  return engines.update id Engine.release

/-- Frees the engine that held a job. An engine that is gone, or bound to another job by now, is
left alone. -/
def releaseFrom (engines : EnginePool) (job : Uuid) : Option String → EnginePool
  | none => engines
  | some id =>
    match engines.get? id with
    | none => engines
    | some engine =>
      if engine.currentJob.all fun current => current = job then
        engines.update id Engine.release
      else engines

def countOf (engines : EnginePool) (status : EngineStatus) : Nat :=
  engines.records.countP fun engine => engine.status = status

def counts (engines : EnginePool) : EngineCounts :=
  ⟨countOf engines .idle, countOf engines .busy⟩

end EnginePool

end JobDispatch
