import JobDispatch.Background.Pacing
import JobDispatch.Desk
set_option autoImplicit false

/- A shift at the desk: an assigner that binds waiting jobs, a sweeper that reclaims jobs whose
assignment took too long, and visitors who come at given times. Time moves on only when nobody is
ready. Those who are ready take turns, one operation of the desk a turn. -/
namespace JobDispatch.Background

inductive Party where
  | assigner
  | sweeper
  | visitor
deriving DecidableEq, Repr

/-- An alarm: the millisecond at which it rings, and the turn in which it was set. -/
structure Alarm where
  due : Nat
  setAt : Nat
deriving DecidableEq, Repr

/-- The assigner pauses while its alarm is set, and else is in the middle of a pass, which may have
bound jobs already. -/
structure Assigner where
  pacing : Pacing
  boundAny : Bool
  alarm : Option Alarm
deriving DecidableEq, Repr

/-- The sweeper is not there, waits for its alarm or its turn, or has broken down. -/
inductive Sweeper where
  | absent
  | working (alarm : Option Alarm)
  | broken
deriving DecidableEq, Repr

/-- What a visitor does at a given millisecond. -/
structure Visit (ρ : Type) where
  due : Nat
  act : Moment → Desk → ρ × Desk

/-- What is fixed for a shift: who is there, when it ends, and what each turn is told from outside,
given the millisecond and the number of the turn. -/
structure Plan where
  settings : Settings
  hasAssigner : Bool
  hasSweeper : Bool
  stop : Nat
  moment : Nat → Nat → Moment

structure Shift (ρ : Type) where
  desk : Desk
  clock : Nat
  turns : Nat
  queue : List Party
  assigner : Option Assigner
  sweeper : Sweeper
  visitAlarm : Option Alarm
  visits : List (Visit ρ)
  answers : List ρ

namespace Shift

variable {ρ : Type}

def nextVisit (turns : Nat) (visits : List (Visit ρ)) : Option Alarm :=
  visits.head?.map fun visit => ⟨visit.due, turns⟩

/-- A wake-up ends the pause of the assigner. -/
def wakeAssigner (shift : Shift ρ) : Shift ρ :=
  match shift.assigner with
  | some ⟨pacing, boundAny, some _⟩ =>
    if shift.desk.wakeUp then
      { shift with
        desk := shift.desk.takeWakeUp.2
        assigner := some ⟨pacing, boundAny, none⟩
        queue := shift.queue ++ [.assigner] }
    else shift
  | _ => shift

/-- The beginning of a shift: the assigner pauses, the sweeper is ready. A sweeper without an
interval breaks down at once. A visitor who is there from the beginning comes first. -/
def opening (plan : Plan) (desk : Desk) (visits : List (Visit ρ)) : Shift ρ :=
  let (early, alarm) := match nextVisit 0 visits with
    | some ⟨0, _⟩ => ([Party.visitor], none)
    | alarm => ([], alarm)
  let start : Shift ρ :=
    { desk := desk
      clock := 0
      turns := 0
      queue := early
      assigner := if plan.hasAssigner then
          some ⟨.fresh plan.settings.assignIntervalMs, false,
            some ⟨plan.settings.assignIntervalMs.toNat, 0⟩⟩
        else none
      sweeper := if plan.hasSweeper then
          if plan.settings.sweepIntervalMs = 0 then .broken else .working none
        else .absent
      visitAlarm := alarm
      visits := visits
      answers := [] }
  let start := start.wakeAssigner
  match start.sweeper with
  | .working _ => { start with queue := start.queue ++ [.sweeper] }
  | _ => start

def endPass (plan : Plan) (result : PassResult) (pacing : Pacing) (shift : Shift ρ) : Shift ρ :=
  let pacing := pacing.after plan.settings result
  { shift with
    assigner := some ⟨pacing, false, some ⟨shift.clock + pacing.delayMs.toNat, shift.turns⟩⟩ }

/-- What a pass came to that ended without a refusal. -/
def passResult (boundAny : Bool) (desk : Desk) : PassResult :=
  if boundAny then .bound else if 0 < desk.board.jobs.pendingCount then .stuck else .drained

/-- A turn of the assigner is one attempt; after one that binds a job it wants another turn. -/
def assignTurn (plan : Plan) (moment : Moment) (shift : Shift ρ) : Shift ρ :=
  match shift.assigner with
  | none => shift
  | some assigner =>
    match shift.desk.assign moment with
    | (.error _, desk) => { shift with desk := desk }.endPass plan .failed assigner.pacing
    | (.ok outcome, desk) =>
      if outcome.isAssigned then
        { shift with
          desk := desk
          assigner := some ⟨assigner.pacing, true, none⟩
          queue := shift.queue ++ [.assigner] }
      else
        { shift with desk := desk }.endPass plan (passResult assigner.boundAny desk)
          assigner.pacing

/-- A turn of the sweeper reclaims what took too long. The sweeper goes on after a refusal, and ends
with a reclaim that breaks down. -/
def sweepTurn (plan : Plan) (moment : Moment) (shift : Shift ρ) : Shift ρ :=
  match shift.desk.reclaim moment with
  | (.error (.broken _), desk) => { shift with desk := desk, sweeper := .broken }
  | (_, desk) =>
    { shift with
      desk := desk
      sweeper :=
        .working (some ⟨shift.clock + plan.settings.sweepIntervalMs.toNat, shift.turns⟩) }

/-- A turn of a visitor; the next one may be waiting already. -/
def visitTurn (moment : Moment) (shift : Shift ρ) : Shift ρ :=
  match shift.visits with
  | [] => shift
  | visit :: visits =>
    let (answer, desk) := visit.act moment shift.desk
    let shift := { shift with desk := desk, visits := visits, answers := answer :: shift.answers }
    match nextVisit shift.turns visits with
    | none => { shift with visitAlarm := none }
    | some alarm =>
      if alarm.due ≤ shift.clock then
        { shift with visitAlarm := none, queue := shift.queue ++ [.visitor] }
      else { shift with visitAlarm := some alarm }

/-- A turn of one of those who are ready. A pausing assigner takes a wake-up as soon as there is
one, and is ready after all others. -/
def takeTurn (plan : Plan) (party : Party) (shift : Shift ρ) : Shift ρ :=
  let shift := { shift with turns := shift.turns + 1 }
  let moment := plan.moment shift.clock shift.turns
  wakeAssigner <| match party with
    | .assigner => shift.assignTurn plan moment
    | .sweeper => shift.sweepTurn plan moment
    | .visitor => shift.visitTurn moment

/-- All alarms that are set, with those whom they call. -/
def alarms (shift : Shift ρ) : List (Alarm × Party) :=
  let assigner := (shift.assigner.bind Assigner.alarm).map (·, Party.assigner)
  let sweeper := match shift.sweeper with
    | .working alarm => alarm.map (·, Party.sweeper)
    | _ => none
  assigner.toList ++ sweeper.toList ++ (shift.visitAlarm.map (·, Party.visitor)).toList

/-- Takes back the alarm of a party that is ready. -/
def silence (shift : Shift ρ) : Party → Shift ρ
  | .assigner =>
    { shift with assigner := shift.assigner.map fun assigner => { assigner with alarm := none } }
  | .sweeper => { shift with sweeper := .working none }
  | .visitor => { shift with visitAlarm := none }

/-- Moves on to the next alarm. Of alarms that ring together the one that was set first calls first.
A shift is over when no alarm rings before its end, but not before the last visit. -/
def moveOn (plan : Plan) (shift : Shift ρ) : Option (Shift ρ) := do
  let alarms := shift.alarms
  let due ← (alarms.map fun (alarm, _) => alarm.due).min?
  if plan.stop ≤ due ∧ shift.visits.isEmpty then none
  let ringing := (alarms.filter fun (alarm, _) => alarm.due = due).mergeSort fun first second =>
    decide (first.1.setAt ≤ second.1.setAt)
  let called := ringing.map Prod.snd
  return { called.foldl silence shift with clock := due, queue := called }

/-- One turn, or one move on when nobody is ready. -/
def advance (plan : Plan) (shift : Shift ρ) : Option (Shift ρ) :=
  match shift.queue with
  | party :: queue => some ({ shift with queue := queue }.takeTurn plan party)
  | [] => shift.moveOn plan

/-- The shift after at most so many advances. -/
def runFor (plan : Plan) : Nat → Shift ρ → Shift ρ
  | 0, shift => shift
  | limit + 1, shift =>
    match shift.advance plan with
    | some next => runFor plan limit next
    | none => shift

/-- How many advances a whole shift is given. -/
def advanceLimit (plan : Plan) (shift : Shift ρ) : Nat :=
  let visits := shift.visits.length
  let last := (shift.visits.map Visit.due).foldl max plan.stop
  (last + 2) * (visits + 4) * (shift.desk.board.jobs.size + visits + 4)

def run (plan : Plan) (desk : Desk) (visits : List (Visit ρ)) : Shift ρ :=
  let start := opening plan desk visits
  start.runFor plan (start.advanceLimit plan)

end Shift

end JobDispatch.Background
