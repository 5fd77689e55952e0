import JobDispatch.Proofs.Desk.Waking
set_option autoImplicit false

/- The assignment loop among any number of callers, one step at a time and in any order. An
operation is in memory and in the document before its wake-up is sent, so that anything can happen
in between. The clock never goes back, and never reads a leap second. -/
namespace JobDispatch.Background

open Time

/-- The loop rests after a pass, of which it keeps what became of it, or before its first one; or it
is in the middle of a pass that has brought some pairs together. -/
inductive LoopState where
  | resting (last : Option (Except Setback (List (Uuid × String))))
  | passing (pairs : List (Uuid × String))
deriving DecidableEq

/-- A desk with its assignment loop at some time. Operations that are saved and have not sent their
wake-up yet are counted. -/
structure Floor where
  desk : Desk
  clock : Instant
  unsent : Nat
  loop : LoopState

/-- What can happen in one step: a caller's operation is carried out, or sends its wake-up; the
clock moves on; the loop takes a wake-up, or is called by its timer, and begins a pass; the loop
makes one attempt of its pass. -/
inductive Happening where
  | serve (operation : Operation) (mishaps : Nat → Mishaps)
  | send
  | tick (later : Instant)
  | wake
  | ring
  | attempt (mishaps : Nat → Mishaps)

namespace Floor

def opening (desk : Desk) (clock : Instant) : Floor := ⟨desk, clock, 0, .resting none⟩

/-- An operation is carried out. Its wake-up, if it leaves one, is not sent yet. -/
def serve (operation : Operation) (mishaps : Nat → Mishaps) (floor : Floor) : Floor :=
  let after := (operation.perform ⟨floor.clock, mishaps⟩ { floor.desk with wakeUp := false }).2
  { floor with
    desk := { after with wakeUp := floor.desk.wakeUp }
    unsent := floor.unsent + after.wakeUp.toNat }

/-- One attempt of a pass, which is over when the attempt is refused or brings nothing together. -/
def attempt (mishaps : Nat → Mishaps) (pairs : List (Uuid × String)) (floor : Floor) : Floor :=
  match floor.desk.assign ⟨floor.clock, mishaps⟩ with
  | (.error setback, desk) =>
    { floor with desk := desk, loop := .resting (some (.error setback)) }
  | (.ok outcome, desk) =>
    match outcome.pair? with
    | some pair => { floor with desk := desk, loop := .passing (pairs ++ [pair]) }
    | none => { floor with desk := desk, loop := .resting (some (.ok pairs)) }

/-- What one step leads to, if it can happen. -/
def next (floor : Floor) : Happening → Option Floor
  | .serve operation mishaps => some (floor.serve operation mishaps)
  | .send =>
    match floor.unsent with
    | 0 => none
    | unsent + 1 => some { floor with desk := floor.desk.signal, unsent := unsent }
  | .tick later =>
    if later.before floor.clock || later.isLeap then none else some { floor with clock := later }
  | .wake =>
    match floor.loop with
    | .resting _ =>
      if floor.desk.wakeUp then
        some { floor with desk := floor.desk.takeWakeUp.2, loop := .passing [] }
      else none
    | .passing _ => none
  | .ring =>
    match floor.loop with
    | .resting _ => some { floor with loop := .passing [] }
    | .passing _ => none
  | .attempt mishaps =>
    match floor.loop with
    | .resting _ => none
    | .passing pairs => some (floor.attempt mishaps pairs)

def run (floor : Floor) (happenings : List Happening) : Option Floor := happenings.foldlM next floor

/-- All that a step can do, with what it asks for. -/
inductive Step (floor : Floor) : Happening → Floor → Prop where
  | serve (operation : Operation) (mishaps : Nat → Mishaps) :
    Step floor (.serve operation mishaps) (floor.serve operation mishaps)
  | send {unsent : Nat} (left : floor.unsent = unsent + 1) :
    Step floor .send { floor with desk := floor.desk.signal, unsent := unsent }
  | tick {later : Instant} (order : later.before floor.clock = false)
      (common : later.isLeap = false) :
    Step floor (.tick later) { floor with clock := later }
  | wake {last : Option (Except Setback (List (Uuid × String)))}
      (rests : floor.loop = .resting last) (awake : floor.desk.wakeUp = true) :
    Step floor .wake { floor with desk := floor.desk.takeWakeUp.2, loop := .passing [] }
  | ring {last : Option (Except Setback (List (Uuid × String)))}
      (rests : floor.loop = .resting last) :
    Step floor .ring { floor with loop := .passing [] }
  | attempt {pairs : List (Uuid × String)} (mishaps : Nat → Mishaps)
      (passing : floor.loop = .passing pairs) :
    Step floor (.attempt mishaps) (floor.attempt mishaps pairs)

theorem step_of_next {floor after : Floor} {happening : Happening}
    (moved : floor.next happening = some after) : Step floor happening after := by
  cases happening with
  | serve operation mishaps =>
    cases moved
    exact .serve operation mishaps
  | send =>
    simp only [next] at moved
    split at moved
    · cases moved
    · rename_i left
      cases moved
      exact .send left
  | tick later =>
    simp only [next, Bool.or_eq_true] at moved
    split at moved
    · cases moved
    · rename_i passable
      rw [not_or, Bool.not_eq_true, Bool.not_eq_true] at passable
      cases moved
      exact .tick passable.1 passable.2
  | wake =>
    simp only [next] at moved
    split at moved
    · rename_i rests
      split at moved
      · rename_i awake
        cases moved
        exact .wake rests awake
      · cases moved
    · cases moved
  | ring =>
    simp only [next] at moved
    split at moved
    · rename_i rests
      cases moved
      exact .ring rests
    · cases moved
  | attempt mishaps =>
    simp only [next] at moved
    split at moved
    · cases moved
    · rename_i passing
      cases moved
      exact .attempt mishaps passing

/-- The loop rests after a pass that was not refused, no wake-up is there for it, and none is on its
way. -/
structure IsQuiet (floor : Floor) : Prop where
  rests : ∃ pairs, floor.loop = .resting (some (.ok pairs))
  asleep : floor.desk.wakeUp = false
  sent : floor.unsent = 0

/-- What holds of a floor in the course of a run that began with a given board. -/
structure Sound (start : Board) (floor : Floor) : Prop where
  kept : floor.desk.Kept
  common : floor.clock.isLeap = false
  leaps : start.KeepsLeaps floor.desk.board
  quiet : floor.IsQuiet →
    ¬ floor.desk.board.Assignable (floor.desk.settings.pairing.trusts floor.clock)

variable {floor after : Floor} {start : Board}

/-- Unless the loop rests after a pass that was not refused, the floor is not quiet. -/
theorem Sound.of_busy (kept : floor.desk.Kept) (common : floor.clock.isLeap = false)
    (leaps : start.KeepsLeaps floor.desk.board)
    (busy : ∀ pairs, floor.loop ≠ .resting (some (.ok pairs))) : floor.Sound start := by
  refine ⟨kept, common, leaps, ?_⟩
  rintro ⟨⟨pairs, rests⟩, _, _⟩
  exact absurd rests (busy pairs)

theorem settings_serve (operation : Operation) (mishaps : Nat → Mishaps) (floor : Floor) :
    (floor.serve operation mishaps).desk.settings = floor.desk.settings :=
  (Operation.continues_perform operation ⟨floor.clock, mishaps⟩
    { floor.desk with wakeUp := false }).settings

/-- An operation that leaves no wake-up leaves a quiet floor as stuck as it was; any other one has a
wake-up to send. -/
theorem Sound.serve (sound : floor.Sound start) (operation : Operation)
    (mishaps : Nat → Mishaps) : (floor.serve operation mishaps).Sound start := by
  have dormant : ({ floor.desk with wakeUp := false } : Desk).Kept :=
    ⟨sound.kept.storable, sound.kept.loads⟩
  obtain ⟨later, history⟩ := dormant.perform operation ⟨floor.clock, mishaps⟩
  refine ⟨⟨later.storable, later.loads⟩, sound.common, sound.leaps.later history sound.common, ?_⟩
  rintro ⟨rests, asleep, sent⟩ assignable
  -- nothing is left to send, so that the operation left no wake-up and the floor was quiet before
  obtain ⟨earlier, silent⟩ := Nat.add_eq_zero_iff.1 sent
  rw [Bool.toNat_eq_zero] at silent
  rw [settings_serve] at assignable
  exact sound.quiet ⟨rests, asleep, earlier⟩
    ((dormant.nothingNew_perform silent).assignable assignable)

/-- A pass that is not refused ends with an attempt that came to nothing. -/
theorem Sound.attempt (sound : floor.Sound start) (mishaps : Nat → Mishaps)
    (pairs : List (Uuid × String)) : (floor.attempt mishaps pairs).Sound start := by
  obtain ⟨later, history⟩ := sound.kept.perform .assign ⟨floor.clock, mishaps⟩
  have leaps := sound.leaps.later history sound.common
  simp only [Operation.perform, Operation.answering] at later leaps
  cases tried : floor.desk.assign ⟨floor.clock, mishaps⟩ with
  | mk answer desk =>
    rw [tried] at later leaps
    cases answer with
    | error refusal =>
      simp only [Floor.attempt, tried]
      exact .of_busy later sound.common leaps fun _ rests => by cases rests
    | ok outcome =>
      cases found : outcome.pair? with
      | some pair =>
        simp only [Floor.attempt, tried, found]
        exact .of_busy later sound.common leaps fun _ rests => by cases rests
      | none =>
        simp only [Floor.attempt, tried, found]
        refine ⟨later, sound.common, leaps, ?_⟩
        intro _ assignable
        -- the attempt looked at this very board, and at this time
        have stuck := Desk.not_assignable_of_assign tried found
        have same := Desk.eq_of_assign_idle tried found
        subst same
        exact stuck (assignable.imp fun engine trusted => (Bool.and_eq_true_iff.1 trusted).2)

/-- Time alone does not make an assignment possible. -/
theorem Sound.tick (sound : floor.Sound start) {later : Instant} (common : later.isLeap = false)
    (order : later.before floor.clock = false) :
    ({ floor with clock := later } : Floor).Sound start := by
  refine ⟨sound.kept, common, sound.leaps, ?_⟩
  rintro ⟨rests, asleep, sent⟩ assignable
  exact sound.quiet ⟨rests, asleep, sent⟩
    (assignable.imp fun engine => Pairing.trusts_earlier sound.common common order)

theorem Sound.step (sound : floor.Sound start) {happening : Happening}
    (step : Step floor happening after) : after.Sound start := by
  cases step with
  | serve operation mishaps => exact sound.serve operation mishaps
  | send left =>
    -- the wake-up is there now, so that the floor is not quiet
    refine ⟨⟨sound.kept.storable, sound.kept.loads⟩, sound.common, sound.leaps, ?_⟩
    rintro ⟨_, asleep, _⟩
    cases asleep
  | tick order common => exact sound.tick common order
  | wake rests awake =>
    exact .of_busy ⟨sound.kept.storable, sound.kept.loads⟩ sound.common sound.leaps
      fun _ rests => by cases rests
  | ring rests =>
    exact .of_busy sound.kept sound.common sound.leaps fun _ rests => by cases rests
  | attempt mishaps passing => exact sound.attempt mishaps _

theorem Sound.opening {settings : Settings} {disk : Disk} {ids : IdSupply} {desk : Desk}
    {clock : Instant} (opened : Desk.start settings disk ids = .ok desk)
    (common : clock.isLeap = false) : (opening desk clock).Sound desk.board :=
  .of_busy (Desk.kept_of_start opened) common (fun _ engine known _ => ⟨engine, known, rfl⟩)
    fun _ rests => by cases rests

theorem run_cons (floor : Floor) (happening : Happening) (later : List Happening) :
    floor.run (happening :: later) = (floor.next happening).bind fun moved => moved.run later := rfl

theorem Sound.run (sound : floor.Sound start) {happenings : List Happening}
    (reached : floor.run happenings = some after) : after.Sound start := by
  induction happenings generalizing floor with
  | nil =>
    cases reached
    exact sound
  | cons happening later ih =>
    rw [run_cons] at reached
    obtain ⟨moved, first, rest⟩ := Option.bind_eq_some_iff.1 reached
    exact ih (sound.step (step_of_next first)) rest

theorem wakeUp_attempt (mishaps : Nat → Mishaps) (pairs : List (Uuid × String))
    (floor : Floor) : (floor.attempt mishaps pairs).desk.wakeUp = floor.desk.wakeUp := by
  have kept := Desk.wakeUp_assign ⟨floor.clock, mishaps⟩ floor.desk
  simp only [Floor.attempt]
  split
  · rename_i tried
    rwa [tried] at kept
  · rename_i tried
    rw [tried] at kept
    split <;> exact kept

/-- Nothing takes a wake-up but the loop, and the loop takes it to begin a pass. -/
theorem Step.wakeUp {happening : Happening} (step : Step floor happening after)
    (awake : floor.desk.wakeUp = true) :
    after.desk.wakeUp = true ∨ happening = .wake ∧ after.loop = .passing [] := by
  cases step with
  | serve operation mishaps => exact .inl awake
  | send left => exact .inl rfl
  | tick order common => exact .inl awake
  | wake rests taken => exact .inr ⟨rfl, rfl⟩
  | ring rests => exact .inl awake
  | attempt mishaps passing => exact .inl ((wakeUp_attempt ..).trans awake)

/-- A wake-up is there until the loop takes it. -/
theorem wakeUp_of_run {later : List Happening} (moved : floor.run later = some after)
    (awake : floor.desk.wakeUp = true) : after.desk.wakeUp = true
      ∨ ∃ before rest taken, later = before ++ .wake :: rest
        ∧ floor.run (before ++ [.wake]) = some taken ∧ taken.loop = .passing [] := by
  induction later generalizing floor with
  | nil =>
    cases moved
    exact .inl awake
  | cons happening later ih =>
    rw [run_cons] at moved
    obtain ⟨middle, first, rest⟩ := Option.bind_eq_some_iff.1 moved
    rcases (step_of_next first).wakeUp awake with still | ⟨woken, begins⟩
    · refine (ih rest still).imp_right ?_
      rintro ⟨before, others, taken, parts, reached, begins⟩
      refine ⟨happening :: before, others, taken, by rw [parts]; rfl, ?_, begins⟩
      rw [List.cons_append, run_cons, first]
      exact reached
    · subst woken
      refine .inr ⟨[], later, middle, rfl, ?_, begins⟩
      rw [List.nil_append, run_cons, first]
      rfl

/-- Where an assignment is possible on a quiet floor, it goes to an engine whose last heartbeat lies
in a leap second, and has from the beginning. -/
theorem Sound.leap_of_assignable (sound : floor.Sound start) (quiet : floor.IsQuiet)
    (possible : floor.desk.board.Assignable (floor.desk.settings.pairing.accepts floor.clock)) :
    ∃ job name engine old,
      (floor.desk.board.assignNext floor.desk.settings.pairing floor.clock floor.clock).1 =
        .ok (.assigned job name)
      ∧ floor.desk.settings.pairing.timeout.isSome = true
      ∧ floor.desk.board.engines.get? name = some engine ∧ engine.lastHeartbeat.isLeap = true
      ∧ start.engines.get? name = some old ∧ old.lastHeartbeat = engine.lastHeartbeat := by
  rcases Board.assignNext_spec sound.kept.storable floor.desk.settings.pairing floor.clock with
    ⟨_, attempt⟩ | ⟨job, _, attempt⟩ | ⟨job, name, after, attempt, _⟩
  · exact absurd possible (Board.not_assignable_of_assignNext attempt rfl)
  · exact absurd possible (Board.not_assignable_of_assignNext attempt rfl)
  · obtain ⟨engine, known, eligible, accepted⟩ :=
      Board.engine_of_assignNext sound.kept.storable attempt
    -- a steady engine would have been found by the pass that ended last
    have unsteady : ¬ floor.desk.settings.pairing.isSteady engine = true := by
      intro steady
      exact sound.quiet quiet ⟨possible.1, engine, Ledger.mem_records_iff.2 ⟨name, known⟩, eligible,
        Bool.and_eq_true_iff.2 ⟨steady, accepted⟩⟩
    simp only [Pairing.isSteady, Bool.or_eq_true, not_or, Bool.not_eq_true, Bool.not_eq_false',
      Option.isNone_eq_false_iff] at unsteady
    obtain ⟨old, there, same⟩ := sound.leaps name engine known unsteady.2
    exact ⟨job, name, engine, old, by rw [attempt], unsteady.1, known, unsteady.2, there, same⟩

/-- No wake-up is lost. On a quiet floor an attempt comes to nothing, unless it finds an engine that
is young again at midnight because its last heartbeat, from the document, lies in a leap second. An
operation that makes an assignment possible has a wake-up to send, and a wake-up that was sent is
there until the loop takes it to begin a pass. -/
theorem no_wakeUp_lost {settings : Settings} {disk : Disk} {ids : IdSupply} {desk : Desk}
    (opened : Desk.start settings disk ids = .ok desk) {clock : Instant}
    (common : clock.isLeap = false) {happenings : List Happening}
    (reached : (opening desk clock).run happenings = some floor) :
    let pairing := floor.desk.settings.pairing
    (floor.IsQuiet → ∀ mishaps,
      (∃ outcome, outcome.isAssigned = false
        ∧ floor.desk.assign ⟨floor.clock, mishaps⟩ = (.ok outcome, floor.desk))
      ∨ ∃ job name engine old,
        (floor.desk.board.assignNext pairing floor.clock floor.clock).1 = .ok (.assigned job name)
        ∧ pairing.timeout.isSome = true
        ∧ floor.desk.board.engines.get? name = some engine ∧ engine.lastHeartbeat.isLeap = true
        ∧ desk.board.engines.get? name = some old ∧ old.lastHeartbeat = engine.lastHeartbeat)
      ∧ (∀ operation mishaps, ¬ floor.desk.board.Assignable (pairing.accepts floor.clock) →
        (floor.serve operation mishaps).desk.board.Assignable (pairing.accepts floor.clock) →
        (floor.serve operation mishaps).unsent = floor.unsent + 1)
      ∧ ∀ later after, floor.run later = some after → floor.desk.wakeUp = true →
        after.desk.wakeUp = true ∨ ∃ before rest taken, later = before ++ .wake :: rest
          ∧ floor.run (before ++ [.wake]) = some taken ∧ taken.loop = .passing [] := by
  intro pairing
  have sound := (Sound.opening opened common).run reached
  refine ⟨?_, ?_, fun later after moved awake => wakeUp_of_run moved awake⟩
  · intro quiet mishaps
    by_cases possible : floor.desk.board.Assignable (pairing.accepts floor.clock)
    · exact .inr (sound.leap_of_assignable quiet possible)
    · exact .inl (Desk.assign_of_not_assignable possible)
  · intro operation mishaps stuck possible
    have dormant : ({ floor.desk with wakeUp := false } : Desk).Kept :=
      ⟨sound.kept.storable, sound.kept.loads⟩
    have woken := dormant.wakeUp_of_assignable stuck possible
    simp only [Floor.serve, woken, Bool.toNat_true]

/-- A run in which an engine and a job come one after the other while the loop is at work, and
another job while the loop is about to end its pass. -/
def crowded : List Happening :=
  let calm := fun _ => Mishaps.none
  let request : JobRequest := ⟨"in", "out", Binary64.zero false, 1⟩
  [.serve (.heartbeat ⟨"engine", .idle, Binary64.zero false⟩) calm, .send, .wake,
    .serve (.benchmark "engine" (Binary64.zero false)) calm, .attempt calm, .send, .wake,
    .serve (.submit request) calm, .attempt calm, .serve (.submit request) calm, .send,
    .attempt calm, .send, .wake, .attempt calm]

theorem no_wakeUp_lost_crowded :
    Desk.start .standard (Desk.initial .standard).disk (Desk.initial .standard).ids =
        .ok (Desk.initial .standard)
      ∧ Moment.first.now.isLeap = false
      ∧ ∃ floor, (opening (Desk.initial .standard) Moment.first.now).run crowded = some floor
        ∧ floor.IsQuiet ∧ floor.desk.board.jobs.pendingCount = 1
        ∧ ∃ outcome, outcome.isAssigned = false
          ∧ floor.desk.assign ⟨floor.clock, fun _ => Mishaps.none⟩ = (.ok outcome, floor.desk) := by
  have opened := Desk.start_initial .standard
  have common : Moment.first.now.isLeap = false := by decide
  have ended : ((opening (Desk.initial .standard) Moment.first.now).run crowded).map (fun floor =>
      (floor.loop, floor.desk.wakeUp, floor.unsent, floor.desk.board.jobs.pendingCount)) =
        some (.resting (some (.ok [])), false, 0, 1) := by
    decide +kernel
  obtain ⟨floor, reached, fields⟩ := Option.map_eq_some_iff.1 ended
  obtain ⟨rests, asleep, sent, pending⟩ : floor.loop = .resting (some (.ok []))
      ∧ floor.desk.wakeUp = false ∧ floor.unsent = 0 ∧ floor.desk.board.jobs.pendingCount = 1 := by
    simpa using fields
  have quiet : floor.IsQuiet := ⟨⟨_, rests⟩, asleep, sent⟩
  refine ⟨opened, common, floor, reached, quiet, pending, ?_⟩
  rcases (no_wakeUp_lost opened common reached).1 quiet (fun _ => Mishaps.none) with
    nothing | ⟨_, _, _, _, _, _, _, _, there, _⟩
  · exact nothing
  · cases there

/-- An idle engine that reported in a leap second at noon of 2024-01-01, with a timeout of 43140.25
seconds. -/
def leaptBoard : Board where
  jobs := Ledger.empty
  engines := ⟨[("engine", ⟨"engine", .idle, Binary64.zero false, ⟨1704110459, 1000000000, by decide,
    by decide⟩, some (Binary64.zero false), none⟩)], by decide⟩

def leaptDesk : Desk :=
  .onFile { Settings.standard with engineTimeoutMs := some 43140250 } leaptBoard

/-- Half a second before midnight. -/
def lateEvening : Instant := ⟨1704153599, 500000000, by decide, by decide⟩

/-- In the evening the engine is too old for a job; at midnight, when nothing but time has passed,
it is not. -/
def overMidnight : List Happening :=
  let calm := fun _ => Mishaps.none
  [.serve (.submit ⟨"in", "out", Binary64.zero false, 1⟩) calm, .send, .wake, .attempt calm,
    .tick ⟨1704153600, 0, by decide, by decide⟩]

theorem assigned_on_quiet_floor :
    Desk.start leaptDesk.settings leaptDesk.disk leaptDesk.ids = .ok leaptDesk
      ∧ lateEvening.isLeap = false
      ∧ ∃ floor, (opening leaptDesk lateEvening).run overMidnight = some floor
        ∧ floor.IsQuiet
        ∧ (floor.desk.assign ⟨floor.clock, fun _ => Mishaps.none⟩).1 =
          .ok (.assigned (Uuid.ofNat 0) "engine") := by
  have storable : leaptBoard.Storable := by decide +kernel
  have opened := Desk.start_onFile leaptDesk.settings storable
  have ended : ((opening leaptDesk lateEvening).run overMidnight).map (fun floor =>
      (floor.loop, floor.desk.wakeUp, floor.unsent,
        (floor.desk.assign ⟨floor.clock, fun _ => Mishaps.none⟩).1)) =
        some (.resting (some (.ok [])), false, 0, .ok (.assigned (Uuid.ofNat 0) "engine")) := by
    decide +kernel
  obtain ⟨floor, reached, fields⟩ := Option.map_eq_some_iff.1 ended
  simp only [Prod.mk.injEq] at fields
  obtain ⟨rests, asleep, sent, answer⟩ := fields
  exact ⟨opened, by decide, floor, reached, ⟨⟨_, rests⟩, asleep, sent⟩, answer⟩

end Floor

end JobDispatch.Background
