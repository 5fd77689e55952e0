import JobDispatch.Background.Shift
import JobDispatch.Proofs.Background.Floor
import JobDispatch.Proofs.Desk.Restart
set_option autoImplicit false

/- A shift is one of the runs of a floor: each of its turns is a chain of steps that can happen
there, and time moves on between them. What holds in every run of a floor holds in every shift. -/
namespace JobDispatch

open Time

namespace Desk

/-- The desk after operations one after another, all at one time. -/
def afterCalls (now : Instant) (calls : List (Operation × (Nat → Mishaps))) (desk : Desk) : Desk :=
  calls.foldl (fun desk call => (call.1.perform ⟨now, call.2⟩ desk).2) desk

end Desk

/-- Whether a wake-up was there before makes no difference to an operation but that it is there
still. -/
theorem Operation.perform_of_dormant (operation : Operation) (moment : Moment) (desk : Desk) :
    (operation.perform moment desk).2 =
      { (operation.perform moment { desk with wakeUp := false }).2 with
        wakeUp := desk.wakeUp
          || (operation.perform moment { desk with wakeUp := false }).2.wakeUp } := by
  have alike : Desk.Alike { desk with wakeUp := false } desk := ⟨rfl, rfl, rfl, rfl⟩
  obtain ⟨answer, left, right, dormant, awake, settings, board, disk, ids⟩ :=
    Desk.agree_perform alike operation moment
  have silent := operation.wakeUp_perform moment { desk with wakeUp := false }
  have woken := operation.wakeUp_perform moment desk
  rw [dormant, Bool.false_or] at silent
  rw [awake, ← silent] at woken
  rw [dormant, awake]
  cases left
  cases right
  cases settings
  cases board
  cases disk
  cases ids
  cases woken
  rfl

namespace Background

namespace Floor

variable {floor middle after : Floor}

theorem run_append (floor : Floor) (first second : List Happening) :
    floor.run (first ++ second) = (floor.run first).bind fun middle => middle.run second := by
  induction first generalizing floor with
  | nil => rfl
  | cons happening first ih =>
    rw [List.cons_append, run_cons, run_cons, Option.bind_assoc]
    exact congrArg _ (funext fun moved => ih moved)

/-- Some steps lead from one floor to another. -/
def Leads (floor after : Floor) : Prop := ∃ happenings, floor.run happenings = some after

theorem Leads.refl (floor : Floor) : floor.Leads floor := ⟨[], rfl⟩

theorem Leads.trans (first : floor.Leads middle) (second : middle.Leads after) :
    floor.Leads after := by
  obtain ⟨before, reached⟩ := first
  obtain ⟨later, moved⟩ := second
  refine ⟨before ++ later, ?_⟩
  rw [run_append, reached]
  exact moved

theorem Leads.single (happening : Happening) (moved : floor.next happening = some after) :
    floor.Leads after := by
  refine ⟨[happening], ?_⟩
  rw [run_cons, moved]
  rfl

/-- An operation of the desk is carried out and then sends its wake-up, if it leaves one. -/
theorem leads_call (sent : floor.unsent = 0) (operation : Operation) (mishaps : Nat → Mishaps) :
    floor.Leads { floor with
      desk := (operation.perform ⟨floor.clock, mishaps⟩ floor.desk).2 } := by
  have served : floor.next (.serve operation mishaps) = some (floor.serve operation mishaps) := rfl
  rw [operation.perform_of_dormant]
  simp only [serve, sent, Nat.zero_add] at served
  cases leaves : (operation.perform ⟨floor.clock, mishaps⟩
      { floor.desk with wakeUp := false }).2.wakeUp with
  | false =>
    rw [leaves, Bool.toNat_false, ← sent] at served
    rw [Bool.or_false]
    exact .single _ served
  | true =>
    rw [leaves, Bool.toNat_true] at served
    rw [Bool.or_true]
    refine (Leads.single _ served).trans (.single .send ?_)
    simp only [next, Desk.signal, sent]

theorem leads_calls (sent : floor.unsent = 0) (calls : List (Operation × (Nat → Mishaps))) :
    floor.Leads { floor with desk := floor.desk.afterCalls floor.clock calls } := by
  induction calls generalizing floor with
  | nil => exact .refl floor
  | cons call calls ih => exact (leads_call sent call.1 call.2).trans (ih sent)

end Floor

/-- Whatever a visitor does is done by operations of the desk, or changes nothing. -/
def Visit.IsCaller {ρ : Type} (visit : Visit ρ) : Prop :=
  ∀ moment desk, ∃ calls, (visit.act moment desk).2 = desk.afterCalls moment.now calls

/-- Time does not go back from turn to turn, and no turn is taken in a leap second. -/
structure Plan.IsSteady (plan : Plan) : Prop where
  common : ∀ clock turn, (plan.moment clock turn).now.isLeap = false
  order : ∀ clock later turn next, clock ≤ later → turn ≤ next →
    (plan.moment later next).now.before (plan.moment clock turn).now = false

/-- The assigner pauses while the loop rests, and knows whether the pass has bound anything. -/
def Assigner.Follows (assigner : Assigner) (loop : LoopState) : Prop :=
  match assigner.alarm with
  | some _ => assigner.boundAny = false ∧ ∃ last, loop = .resting last
  | none => ∃ pairs, loop = .passing pairs ∧ assigner.boundAny = !pairs.isEmpty

def Sweeper.alarm? : Sweeper → Option Alarm
  | working alarm => alarm
  | _ => none

namespace Shift

variable {ρ : Type} {plan : Plan} {floor : Floor} {shift : Shift ρ}

/-- The assigner is in the middle of a pass. -/
def isAssigning (shift : Shift ρ) : Bool := shift.assigner.any fun assigner => assigner.alarm.isNone

/-- No alarm rings before a given time. -/
structure SilentUntil (time : Nat) (shift : Shift ρ) : Prop where
  assigner : ∀ alarm, shift.assigner.bind Assigner.alarm = some alarm → time ≤ alarm.due
  sweeper : ∀ alarm, shift.sweeper.alarm? = some alarm → time ≤ alarm.due
  visitor : ∀ alarm, shift.visitAlarm = some alarm → time ≤ alarm.due

/-- The floor is a view of the shift between two turns. The assigner waits for one turn in the
middle of a pass, and for none while it pauses. -/
structure OnFloor (plan : Plan) (floor : Floor) (shift : Shift ρ) : Prop where
  desk : floor.desk = shift.desk
  sent : floor.unsent = 0
  time : ∀ clock turn, shift.clock ≤ clock → shift.turns ≤ turn →
    (plan.moment clock turn).now.before floor.clock = false
  loop : ∀ assigner, shift.assigner = some assigner → assigner.Follows floor.loop
  turn : shift.queue.count .assigner = shift.isAssigning.toNat
  ahead : shift.SilentUntil shift.clock
  callers : ∀ visit ∈ shift.visits, visit.IsCaller

/-- Some steps lead from the floor to a view of the shift. -/
def Reaches (plan : Plan) (floor : Floor) (shift : Shift ρ) : Prop :=
  ∃ after, floor.Leads after ∧ OnFloor plan after shift

/-- A wake-up that the assigner takes is taken by the loop. -/
theorem OnFloor.wakeAssigner (view : OnFloor plan floor shift) :
    Reaches plan floor shift.wakeAssigner := by
  simp only [Shift.wakeAssigner]
  split
  · rename_i pacing boundAny alarm pausing
    split
    · rename_i awake
      obtain ⟨idle, last, rests⟩ := view.loop _ pausing
      have woken : floor.next .wake =
          some { floor with desk := floor.desk.takeWakeUp.2, loop := .passing [] } := by
        simp only [Floor.next, rests, view.desk, awake, if_true]
      refine ⟨_, .single _ woken, ?_, view.sent, view.time, ?_, ?_, ?_, view.callers⟩
      · simp only [view.desk]
      · intro assigner same
        cases same
        exact ⟨[], rfl, idle⟩
      · have none : shift.queue.count .assigner = 0 := by
          simpa [isAssigning, pausing] using view.turn
        simp [isAssigning, none]
      · refine ⟨?_, view.ahead.sweeper, view.ahead.visitor⟩
        intro alarm set
        cases set
    · exact ⟨floor, .refl floor, view⟩
  · exact ⟨floor, .refl floor, view⟩

/-- A turn of the assigner is one attempt of the loop. -/
theorem OnFloor.assignTurn {moment : Moment} {queue : List Party}
    (view : OnFloor plan floor shift) (first : shift.queue = .assigner :: queue)
    (same : floor.clock = moment.now) :
    Reaches plan floor ({ shift with queue := queue }.assignTurn plan moment) := by
  -- an assigner that has its turn does not pause, and waits for no other turn
  have counted := view.turn
  rw [first, List.count_cons_self] at counted
  cases present : shift.assigner with
  | none => simp [isAssigning, present] at counted
  | some assigner =>
    obtain ⟨pacing, boundAny, alarm⟩ := assigner
    cases alarm with
    | some alarm => simp [isAssigning, present] at counted
    | none =>
      have free : queue.count .assigner = 0 := by simpa [isAssigning, present] using counted
      obtain ⟨pairs, passing, bound⟩ := view.loop _ present
      have whole : (⟨floor.clock, moment.mishaps⟩ : Moment) = moment := by rw [same]
      have tried : floor.next (.attempt moment.mishaps) =
          some (floor.attempt moment.mishaps pairs) := by
        simp only [Floor.next, passing]
      refine ⟨_, .single _ tried, ?_⟩
      -- whatever the attempt came to, the pass may be over
      have paused (pacing : Pacing) (desk : Desk)
          (last : Option (Except Setback (List (Uuid × String)))) :
          OnFloor plan { floor with desk := desk, loop := .resting last }
            { shift with
              queue := queue, desk := desk
              assigner := some ⟨pacing, false,
                some ⟨shift.clock + pacing.delayMs.toNat, shift.turns⟩⟩ } := by
        refine ⟨rfl, view.sent, view.time, ?_, ?_, ?_, view.callers⟩
        · intro assigner set
          cases set
          exact ⟨rfl, last, rfl⟩
        · simpa [isAssigning] using free
        · refine ⟨?_, view.ahead.sweeper, view.ahead.visitor⟩
          intro alarm set
          cases set
          exact Nat.le_add_right _ _
      simp only [Floor.attempt, Shift.assignTurn, whole, view.desk]
      cases shift.desk.assign moment with
      | mk answer desk =>
        cases answer with
        | error refusal => exact paused _ desk _
        | ok outcome =>
          cases found : outcome.pair? with
          | none =>
            simp only [AssignmentOutcome.isAssigned, found, Option.isSome_none,
              Bool.false_eq_true, if_false]
            exact paused _ desk _
          | some pair =>
            simp only [AssignmentOutcome.isAssigned, found, Option.isSome_some, if_true]
            refine ⟨rfl, view.sent, view.time, ?_, ?_, ?_, view.callers⟩
            · intro assigner set
              cases set
              exact ⟨_, rfl, by simp⟩
            · simp [isAssigning, free]
            · refine ⟨?_, view.ahead.sweeper, view.ahead.visitor⟩
              intro alarm set
              cases set

/-- A turn of the sweeper is an operation of the desk. -/
theorem OnFloor.sweepTurn {moment : Moment} (view : OnFloor plan floor shift)
    (same : floor.clock = moment.now) : Reaches plan floor (shift.sweepTurn plan moment) := by
  have whole : (⟨floor.clock, moment.mishaps⟩ : Moment) = moment := by rw [same]
  have leads := Floor.leads_call view.sent .reclaim moment.mishaps
  rw [whole, view.desk] at leads
  refine ⟨_, leads, ?_⟩
  simp only [Shift.sweepTurn, Operation.perform]
  split
  · rename_i desk reclaimed
    rw [reclaimed]
    refine ⟨rfl, view.sent, view.time, view.loop, view.turn, ?_, view.callers⟩
    refine ⟨view.ahead.assigner, ?_, view.ahead.visitor⟩
    intro alarm set
    cases set
  · rename_i answer desk _ reclaimed
    rw [reclaimed]
    refine ⟨rfl, view.sent, view.time, view.loop, view.turn, ?_, view.callers⟩
    refine ⟨view.ahead.assigner, ?_, view.ahead.visitor⟩
    intro alarm set
    cases set
    exact Nat.le_add_right _ _

/-- A turn of a visitor is a chain of operations of the desk. -/
theorem OnFloor.visitTurn {moment : Moment} (view : OnFloor plan floor shift)
    (same : floor.clock = moment.now) : Reaches plan floor (shift.visitTurn moment) := by
  simp only [Shift.visitTurn]
  split
  · exact ⟨floor, .refl floor, view⟩
  · rename_i visit visits listed
    have callers := view.callers
    rw [listed, List.forall_mem_cons] at callers
    obtain ⟨calls, acted⟩ := callers.1 moment shift.desk
    have leads := Floor.leads_calls view.sent calls
    rw [← same] at acted
    rw [view.desk, ← acted] at leads
    refine ⟨_, leads, ?_⟩
    split
    · refine ⟨rfl, view.sent, view.time, view.loop, view.turn, ?_, callers.2⟩
      exact ⟨view.ahead.assigner, view.ahead.sweeper, fun _ set => by cases set⟩
    · rename_i alarm _
      split
      · refine ⟨rfl, view.sent, view.time, view.loop, ?_, ?_, callers.2⟩
        · rw [List.count_append, view.turn]
          rfl
        · exact ⟨view.ahead.assigner, view.ahead.sweeper, fun _ set => by cases set⟩
      · rename_i later
        refine ⟨rfl, view.sent, view.time, view.loop, view.turn, ?_, callers.2⟩
        refine ⟨view.ahead.assigner, view.ahead.sweeper, ?_⟩
        intro other set
        cases set
        exact Nat.le_of_not_le later

/-- A turn of somebody else than the assigner takes nothing from the assigner. -/
theorem OnFloor.of_cons {party : Party} {queue : List Party} (view : OnFloor plan floor shift)
    (first : shift.queue = party :: queue) (other : party ≠ .assigner) :
    OnFloor plan floor { shift with queue := queue } := by
  refine ⟨view.desk, view.sent, view.time, view.loop, ?_, ?_, view.callers⟩
  · have counted := view.turn
    rwa [first, List.count_cons_of_ne other] at counted
  · exact ⟨view.ahead.assigner, view.ahead.sweeper, view.ahead.visitor⟩

/-- Every turn is a chain of steps, after the clock has moved on. -/
theorem OnFloor.takeTurn (steady : plan.IsSteady) {party : Party} {queue : List Party}
    (view : OnFloor plan floor shift) (first : shift.queue = party :: queue) :
    Reaches plan floor ({ shift with queue := queue }.takeTurn plan party) := by
  have common := steady.common shift.clock (shift.turns + 1)
  have order := view.time shift.clock (shift.turns + 1) (Nat.le_refl _) (Nat.le_succ _)
  have ticked : floor.next (.tick (plan.moment shift.clock (shift.turns + 1)).now) =
      some { floor with clock := (plan.moment shift.clock (shift.turns + 1)).now } := by
    simp only [Floor.next, common, order, Bool.or_self, Bool.false_eq_true, if_false]
  have now : OnFloor plan
      { floor with clock := (plan.moment shift.clock (shift.turns + 1)).now }
      { shift with turns := shift.turns + 1 } :=
    ⟨view.desk, view.sent, fun _ _ => steady.order _ _ _ _, view.loop, view.turn,
      ⟨view.ahead.assigner, view.ahead.sweeper, view.ahead.visitor⟩, view.callers⟩
  have acted : ∀ next : Shift ρ, Reaches plan
      { floor with clock := (plan.moment shift.clock (shift.turns + 1)).now } next →
      Reaches plan floor next.wakeAssigner := by
    rintro next ⟨middle, leads, reached⟩
    obtain ⟨after, further, last⟩ := reached.wakeAssigner
    exact ⟨after, ((Floor.Leads.single _ ticked).trans leads).trans further, last⟩
  simp only [Shift.takeTurn]
  cases party with
  | assigner => exact acted _ (now.assignTurn first rfl)
  | sweeper => exact acted _ ((now.of_cons first (by decide)).sweepTurn rfl)
  | visitor => exact acted _ ((now.of_cons first (by decide)).visitTurn rfl)

/-- Whoever is called has no alarm any more, and nobody else is touched. -/
theorem foldl_silence (called : List Party) (shift : Shift ρ) :
    called.foldl silence shift =
      { shift with
        assigner := if .assigner ∈ called then
            shift.assigner.map fun assigner => { assigner with alarm := none }
          else shift.assigner
        sweeper := if .sweeper ∈ called then .working none else shift.sweeper
        visitAlarm := if .visitor ∈ called then none else shift.visitAlarm } := by
  induction called generalizing shift with
  | nil => rfl
  | cons party called ih =>
    rw [List.foldl_cons, ih]
    cases party with
    | assigner => cases present : shift.assigner <;> simp [silence, present]
    | sweeper => simp [silence]
    | visitor => simp [silence]

def listed (party : Party) (alarm : Option Alarm) : List (Alarm × Party) :=
  (alarm.map fun alarm => (alarm, party)).toList

theorem alarms_eq (shift : Shift ρ) :
    shift.alarms = listed .assigner (shift.assigner.bind Assigner.alarm)
      ++ listed .sweeper shift.sweeper.alarm? ++ listed .visitor shift.visitAlarm := by
  simp only [alarms]
  cases shift.sweeper <;> rfl

theorem le_listed_iff {time : Nat} {party : Party} {alarm : Option Alarm} :
    (∀ entry ∈ listed party alarm, time ≤ entry.1.due) ↔
      ∀ set, alarm = some set → time ≤ set.due := by
  cases alarm <;> simp [listed]

theorem silentUntil_iff {time : Nat} :
    shift.SilentUntil time ↔ ∀ entry ∈ shift.alarms, time ≤ entry.1.due := by
  simp only [alarms_eq, List.forall_mem_append, le_listed_iff]
  constructor
  · rintro ⟨assigner, sweeper, visitor⟩
    exact ⟨⟨assigner, sweeper⟩, visitor⟩
  · rintro ⟨⟨assigner, sweeper⟩, visitor⟩
    exact ⟨assigner, sweeper, visitor⟩

/-- Those are called whose alarms ring first, each of them once. -/
theorem moveOn_eq_some {next : Shift ρ} (moved : shift.moveOn plan = some next) :
    ∃ (due : Nat) (called : List Party),
      (shift.alarms.map fun entry => entry.1.due).min? = some due
      ∧ called.Perm ((shift.alarms.filter fun entry => entry.1.due = due).map Prod.snd)
      ∧ next = { called.foldl silence shift with clock := due, queue := called } := by
  simp only [Shift.moveOn] at moved
  obtain ⟨due, least, rest⟩ := Option.bind_eq_some_iff.1 moved
  split at rest
  · cases rest
  · cases rest
    exact ⟨due, _, least, (List.mergeSort_perm _ _).map _, rfl⟩

theorem count_listed (party called : Party) (due : Nat) (alarm : Option Alarm) :
    (((listed party alarm).filter fun entry => entry.1.due = due).map Prod.snd).count called =
      if party = called then (alarm.any fun alarm => alarm.due = due).toNat else 0 := by
  cases alarm with
  | none => simp [listed]
  | some alarm =>
    by_cases rings : alarm.due = due <;> by_cases same : party = called <;>
      simp [listed, rings, same]

/-- The assigner is called once if its alarm rings, and else not at all. -/
theorem count_assigner_ringing (due : Nat) (shift : Shift ρ) :
    ((shift.alarms.filter fun entry => entry.1.due = due).map Prod.snd).count .assigner =
      ((shift.assigner.bind Assigner.alarm).any fun alarm => alarm.due = due).toNat := by
  simp [alarms_eq, count_listed]

/-- Time moves on to the next alarm. If it calls the assigner, a pass begins. -/
theorem OnFloor.moveOn (view : OnFloor plan floor shift) (nobody : shift.queue = [])
    {next : Shift ρ} (moved : shift.moveOn plan = some next) : Reaches plan floor next := by
  obtain ⟨due, called, least, permuted, equal⟩ := moveOn_eq_some moved
  obtain ⟨listed, least⟩ := List.min?_eq_some_iff.1 least
  have counted := permuted.count_eq .assigner
  rw [count_assigner_ringing] at counted
  -- the assigner pauses, or else it would wait for its turn
  have pausing : shift.isAssigning = false := by
    have idle := view.turn
    rw [nobody] at idle
    simpa using idle.symm
  have later : shift.clock ≤ due := by
    obtain ⟨entry, member, rings⟩ := List.mem_map.1 listed
    have ahead := silentUntil_iff.1 view.ahead entry member
    rwa [rings] at ahead
  have silent : shift.SilentUntil due := silentUntil_iff.2 fun entry member =>
    least entry.1.due (List.mem_map.2 ⟨entry, member, rfl⟩)
  have time (clock turn : Nat) (reached : due ≤ clock) (taken : shift.turns ≤ turn) :=
    view.time clock turn (later.trans reached) taken
  rw [foldl_silence] at equal
  subst equal
  have ahead (assigner : Option Assigner)
      (set : ∀ alarm, assigner.bind Assigner.alarm = some alarm →
        shift.assigner.bind Assigner.alarm = some alarm) :
      SilentUntil due { shift with
        assigner := assigner
        sweeper := if .sweeper ∈ called then .working none else shift.sweeper
        visitAlarm := if .visitor ∈ called then none else shift.visitAlarm
        clock := due, queue := called } := by
    refine ⟨fun alarm same => silent.assigner alarm (set alarm same), ?_, ?_⟩
    · intro alarm same
      by_cases rung : Party.sweeper ∈ called
      · simp [rung, Sweeper.alarm?] at same
      · simp only [rung, if_false] at same
        exact silent.sweeper alarm same
    · intro alarm same
      by_cases rung : Party.visitor ∈ called
      · simp [rung] at same
      · simp only [rung, if_false] at same
        exact silent.visitor alarm same
  by_cases rung : Party.assigner ∈ called
  · cases present : shift.assigner with
    | none =>
      simp only [present, Option.bind_none, Option.any_none, Bool.toNat_false,
        List.count_eq_zero] at counted
      exact absurd rung counted
    | some assigner =>
      obtain ⟨pacing, boundAny, alarm⟩ := assigner
      cases alarm with
      | none => simp [isAssigning, present] at pausing
      | some alarm =>
        obtain ⟨idle, last, rests⟩ := view.loop _ present
        have rang : floor.next .ring = some { floor with loop := .passing [] } := by
          simp only [Floor.next, rests]
        have once : called.count .assigner = 1 := by
          have some := List.count_pos_iff.2 rung
          rw [counted] at some ⊢
          exact Nat.le_antisymm (Bool.toNat_le _) some
        simp only [if_pos rung, Option.map_some]
        refine ⟨_, .single _ rang, view.desk, view.sent, time, ?_, once, ahead _ ?_, view.callers⟩
        · intro assigner set
          cases set
          exact ⟨[], rfl, idle⟩
        · intro alarm set
          cases set
  · simp only [if_neg rung]
    refine ⟨floor, .refl floor, view.desk, view.sent, time, view.loop, ?_,
      ahead _ fun _ set => set, view.callers⟩
    rw [List.count_eq_zero.2 rung]
    exact (congrArg Bool.toNat pausing).symm

/-- A shift goes on as the floor can. -/
theorem OnFloor.runFor (steady : plan.IsSteady) (view : OnFloor plan floor shift) (limit : Nat) :
    Reaches plan floor (shift.runFor plan limit) := by
  induction limit generalizing floor shift with
  | zero => exact ⟨floor, .refl floor, view⟩
  | succ limit ih =>
    have onward {next : Shift ρ} (reached : Reaches plan floor next) :
        Reaches plan floor (next.runFor plan limit) := by
      obtain ⟨middle, leads, view⟩ := reached
      obtain ⟨after, further, last⟩ := ih view
      exact ⟨after, leads.trans further, last⟩
    simp only [Shift.runFor, Shift.advance]
    cases waiting : shift.queue with
    | cons party queue => exact onward (view.takeTurn steady waiting)
    | nil =>
      cases moved : shift.moveOn plan with
      | none => exact ⟨floor, .refl floor, view⟩
      | some next => exact onward (view.moveOn waiting moved)

/-- A party other than the assigner may always wait for a turn. -/
theorem OnFloor.enqueue {party : Party} (view : OnFloor plan floor shift)
    (other : party ≠ .assigner) :
    OnFloor plan floor { shift with queue := shift.queue ++ [party] } := by
  refine ⟨view.desk, view.sent, view.time, view.loop, ?_, ?_, view.callers⟩
  · rw [List.count_append, List.count_singleton, beq_false_of_ne other, view.turn]
    rfl
  · exact ⟨view.ahead.assigner, view.ahead.sweeper, view.ahead.visitor⟩

/-- A shift begins as the floor does, but for a wake-up that is there already. -/
theorem reaches_opening (desk : Desk) {visits : List (Visit ρ)} (steady : plan.IsSteady)
    (callers : ∀ visit ∈ visits, visit.IsCaller) :
    Reaches plan (.opening desk (plan.moment 0 0).now) (opening plan desk visits) := by
  have begins (queue : List Party) (alarm : Option Alarm) (nobody : queue.count .assigner = 0) :
      OnFloor plan (.opening desk (plan.moment 0 0).now)
        { desk := desk
          clock := 0
          turns := 0
          queue := queue
          assigner := if plan.hasAssigner then
              some ⟨.fresh plan.settings.assignIntervalMs, false,
                some ⟨plan.settings.assignIntervalMs.toNat, 0⟩⟩
            else none
          sweeper := if plan.hasSweeper then
              if plan.settings.sweepIntervalMs = 0 then .broken else .working none
            else .absent
          visitAlarm := alarm
          visits := visits
          answers := [] } := by
    refine ⟨rfl, rfl, fun _ _ => steady.order _ _ _ _, ?_, ?_, ⟨?_, ?_, ?_⟩, callers⟩
    · intro assigner set
      split at set
      · cases set
        exact ⟨rfl, none, rfl⟩
      · cases set
    · rw [nobody]
      cases plan.hasAssigner <;> rfl
    · exact fun _ _ => Nat.zero_le _
    · exact fun _ _ => Nat.zero_le _
    · exact fun _ _ => Nat.zero_le _
  have completed {shift : Shift ρ}
      (view : OnFloor plan (.opening desk (plan.moment 0 0).now) shift) :
      Reaches plan (.opening desk (plan.moment 0 0).now)
        (match shift.wakeAssigner.sweeper with
        | .working _ =>
          { shift.wakeAssigner with queue := shift.wakeAssigner.queue ++ [Party.sweeper] }
        | _ => shift.wakeAssigner) := by
    obtain ⟨after, leads, view⟩ := view.wakeAssigner
    refine ⟨after, leads, ?_⟩
    split
    · exact view.enqueue (by decide)
    · exact view
  simp only [Shift.opening]
  cases nextVisit 0 visits with
  | none => exact completed (begins [] none rfl)
  | some alarm =>
    obtain ⟨due, setAt⟩ := alarm
    cases due with
    | zero => exact completed (begins [.visitor] none rfl)
    | succ due => exact completed (begins [] (some ⟨due + 1, setAt⟩) rfl)

/-- Every shift of callers is one of the runs of a floor. -/
theorem reaches_run (desk : Desk) {visits : List (Visit ρ)} (steady : plan.IsSteady)
    (callers : ∀ visit ∈ visits, visit.IsCaller) (limit : Nat) :
    Reaches plan (.opening desk (plan.moment 0 0).now)
      ((opening plan desk visits).runFor plan limit) := by
  obtain ⟨middle, leads, view⟩ := reaches_opening desk steady callers
  obtain ⟨after, further, last⟩ := view.runFor steady limit
  exact ⟨after, leads.trans further, last⟩

/-- What holds of a floor in the course of any run holds of a view of the shift at any point. -/
theorem sound_run {settings : Settings} {disk : Disk} {ids : IdSupply} {desk : Desk}
    {visits : List (Visit ρ)} (opened : Desk.start settings disk ids = .ok desk)
    (steady : plan.IsSteady) (callers : ∀ visit ∈ visits, visit.IsCaller) (limit : Nat) :
    ∃ floor : Floor, floor.Sound desk.board
      ∧ OnFloor plan floor ((opening plan desk visits).runFor plan limit) := by
  obtain ⟨floor, ⟨happenings, reached⟩, view⟩ := reaches_run desk steady callers limit
  exact ⟨floor, (Floor.Sound.opening opened (steady.common 0 0)).run reached, view⟩

end Shift

end Background

end JobDispatch
