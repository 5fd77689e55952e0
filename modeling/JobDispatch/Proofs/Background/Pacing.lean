import JobDispatch.Proofs.Background.Sweep
import JobDispatch.Proofs.Settings
set_option autoImplicit false

/- How long the assignment loop waits, from the whole history of its passes. Only the passes since
the last one that came to something count: the induction goes over that streak from its end, as the
loop does, and its length is all that the pacing remembers. Beside a shift a journal is kept of what
the attempts of the assigner answered. The shift never reads it, and at any time its passes give the
time at which the alarm of the assigner rings. -/
namespace JobDispatch.Background

/-- A pass that is over: what it answered, and how many jobs wait right after it. -/
structure Pass where
  answer : Except Setback (List (Uuid × String))
  waiting : Nat

namespace Pass

/-- The pass failed, or it bound nothing although jobs wait. -/
def isUnproductive (pass : Pass) : Bool :=
  match pass.answer with
  | .error _ => true
  | .ok pairs => pairs.isEmpty && decide (0 < pass.waiting)

/-- What the loop takes the pass for. -/
def result (pass : Pass) : PassResult :=
  match pass.answer with
  | .error _ => .failed
  | .ok pairs => if !pairs.isEmpty then .bound else if 0 < pass.waiting then .stuck else .drained

theorem isUnproductive_result (pass : Pass) :
    pass.result.isUnproductive = pass.isUnproductive := by
  obtain ⟨answer, waiting⟩ := pass
  cases answer with
  | error refusal => rfl
  | ok pairs =>
    simp only [result, isUnproductive]
    cases pairs.isEmpty
    · rfl
    · by_cases waits : 0 < waiting <;> simp [waits, PassResult.isUnproductive]

end Pass

namespace Pacing

variable {settings : Settings} {earlier streak : List Pass}

/-- The pause after a whole history of passes. -/
def ofPasses (settings : Settings) (passes : List Pass) : Pacing :=
  afterAll settings (passes.map Pass.result)

theorem after_result (settings : Settings) (pass : Pass) (pacing : Pacing) :
    pacing.after settings pass.result =
      if pass.isUnproductive then
        ⟨settings.backoff.delay pacing.attempts, saturatingSucc pacing.attempts⟩
      else fresh settings.assignIntervalMs := by
  rw [after, pass.isUnproductive_result]

theorem ofPasses_concat (settings : Settings) (passes : List Pass) (pass : Pass) :
    ofPasses settings (passes ++ [pass]) =
      (ofPasses settings passes).after settings pass.result := by
  simp only [ofPasses, afterAll, List.map_append, List.map_cons, List.map_nil, List.foldl_append,
    List.foldl_cons, List.foldl_nil]

/-- There was no pass yet, or the last one came to something or had nothing to do. -/
def Settled (passes : List Pass) : Prop := ∀ pass ∈ passes.getLast?, pass.isUnproductive = false

theorem Settled.ofPasses_eq (settled : Settled earlier) :
    ofPasses settings earlier = fresh settings.assignIntervalMs := by
  rcases List.eq_nil_or_concat earlier with none | ⟨passes, last, same⟩
  · rw [none]
    rfl
  · rw [List.concat_eq_append] at same
    subst same
    have reset : last.isUnproductive = false := settled last (by simp)
    rw [ofPasses_concat, after_result, reset]
    rfl

/-- The attempts count the passes of a streak, as far as a word does. -/
theorem Settled.toNat_attempts (settled : Settled earlier)
    (unproductive : ∀ pass ∈ streak, pass.isUnproductive = true) :
    (ofPasses settings (earlier ++ streak)).attempts.toNat =
      min streak.length (2 ^ 32 - 1) := by
  induction streak using List.reverseRecOn with
  | nil =>
    rw [List.append_nil, settled.ofPasses_eq]
    rfl
  | append_singleton streak pass ih =>
    rw [List.forall_mem_append, List.forall_mem_singleton] at unproductive
    have counted := ih unproductive.1
    rw [← List.append_assoc, ofPasses_concat, after_result, unproductive.2, if_pos rfl,
      toNat_saturatingSucc, counted, List.length_append, List.length_singleton]
    omega

/-- The pause after a streak is set by its length alone. -/
theorem Settled.delayMs_eq (settled : Settled earlier)
    (unproductive : ∀ pass ∈ streak, pass.isUnproductive = true) {count : Nat}
    (length : streak.length = count + 1) :
    (ofPasses settings (earlier ++ streak)).delayMs =
      settings.backoff.delay (UInt32.ofNat (min count (2 ^ 32 - 1))) := by
  rcases List.eq_nil_or_concat streak with none | ⟨before, last, same⟩
  · simp [none] at length
  · rw [List.concat_eq_append] at same
    subst same
    rw [List.forall_mem_append, List.forall_mem_singleton] at unproductive
    rw [List.length_append, List.length_singleton, Nat.add_right_cancel_iff] at length
    have counted : (ofPasses settings (earlier ++ before)).attempts.toNat = _ :=
      settled.toNat_attempts unproductive.1
    rw [length] at counted
    rw [← List.append_assoc, ofPasses_concat, after_result, unproductive.2, if_pos rfl, ← counted,
      UInt32.ofNat_toNat]

/-- A streak that goes on makes the pause no shorter. -/
theorem Settled.delayMs_mono (settled : Settled earlier) {more : List Pass} (some : streak ≠ [])
    (unproductive : ∀ pass ∈ streak ++ more, pass.isUnproductive = true) :
    (ofPasses settings (earlier ++ streak)).delayMs ≤
      (ofPasses settings (earlier ++ (streak ++ more))).delayMs := by
  obtain ⟨count, length⟩ := Nat.exists_eq_succ_of_ne_zero (List.length_pos_iff.2 some).ne'
  have whole : (streak ++ more).length = count + more.length + 1 := by
    rw [List.length_append, length]
    omega
  have bound (count : Nat) : min count (2 ^ 32 - 1) < UInt32.size := by
    unfold UInt32.size
    omega
  rw [settled.delayMs_eq (List.forall_mem_append.1 unproductive).1 length,
    settled.delayMs_eq unproductive whole]
  apply Backoff.delay_mono
  rw [UInt32.le_iff_toNat_le, UInt32.toNat_ofNat_of_lt' (bound _),
    UInt32.toNat_ofNat_of_lt' (bound _)]
  omega

theorem Settled.delayMs_le_maxMs (settled : Settled earlier) (some : streak ≠ [])
    (unproductive : ∀ pass ∈ streak, pass.isUnproductive = true) :
    (ofPasses settings (earlier ++ streak)).delayMs ≤ settings.backoff.maxMs := by
  obtain ⟨count, length⟩ := Nat.exists_eq_succ_of_ne_zero (List.length_pos_iff.2 some).ne'
  rw [settled.delayMs_eq unproductive length]
  exact Backoff.delay_le_maxMs _ _

/-- No pause is longer than the interval and the greatest pause. -/
theorem delayMs_le_max (settings : Settings) (passes : List Pass) :
    (ofPasses settings passes).delayMs.toNat ≤
      max settings.assignIntervalMs.toNat settings.backoff.maxMs.toNat := by
  rcases List.eq_nil_or_concat passes with none | ⟨before, last, same⟩
  · rw [none]
    exact Nat.le_max_left ..
  · rw [same, List.concat_eq_append, ofPasses_concat, after_result]
    split
    · have bound := settings.backoff.delay_le_maxMs (ofPasses settings before).attempts
      exact (UInt64.le_iff_toNat_le.1 bound).trans (Nat.le_max_right ..)
    · exact Nat.le_max_left ..

end Pacing

/-- What an assigner has come to: the pairs of the pass that it is in the middle of, the passes that
are over, and the time at which the last of them was over. -/
structure Journal where
  pairs : List (Uuid × String)
  passes : List Pass
  since : Nat

namespace Journal

def empty : Journal := ⟨[], [], 0⟩

def close (clock : Nat) (answer : Except Setback (List (Uuid × String))) (desk : Desk)
    (journal : Journal) : Journal :=
  ⟨[], journal.passes ++ [⟨answer, desk.board.jobs.pendingCount⟩], clock⟩

/-- Enters what an attempt of the pass in progress came to. -/
def enter (clock : Nat) (attempt : Except Setback AssignmentOutcome × Desk) (journal : Journal) :
    Journal :=
  match attempt with
  | (.error setback, desk) => journal.close clock (.error setback) desk
  | (.ok outcome, desk) =>
    match outcome.pair? with
    | some pair => { journal with pairs := journal.pairs ++ [pair] }
    | none => journal.close clock (.ok journal.pairs) desk

/-- Enters the next advance of a shift. All but the turns of the assigner is nothing to the
journal. -/
def note {ρ : Type} (plan : Plan) (shift : Shift ρ) (journal : Journal) : Journal :=
  match shift.queue with
  | .assigner :: _ =>
    journal.enter shift.clock (shift.desk.assign (plan.moment shift.clock (shift.turns + 1)))
  | _ => journal

/-- The journal of so many advances. -/
def ofRun {ρ : Type} (plan : Plan) (start : Shift ρ) : Nat → Journal
  | 0 => .empty
  | count + 1 => (ofRun plan start count).note plan (start.runFor plan count)

end Journal

/-- The pause of the assigner is the one that its passes give, and its alarm rings so long after the
last of them. -/
structure Assigner.Keeps (settings : Settings) (journal : Journal) (assigner : Assigner) :
    Prop where
  pacing : assigner.pacing = .ofPasses settings journal.passes
  bound : assigner.boundAny = !journal.pairs.isEmpty
  alarm : ∀ alarm, assigner.alarm = some alarm →
    alarm.due = journal.since + assigner.pacing.delayMs.toNat

theorem Assigner.Keeps.ready {settings : Settings} {journal : Journal} {assigner : Assigner}
    (keeps : assigner.Keeps settings journal) :
    { assigner with alarm := none }.Keeps settings journal :=
  ⟨keeps.pacing, keeps.bound, fun _ set => by cases set⟩

namespace Shift

variable {ρ : Type} {plan : Plan} {journal : Journal} {shift : Shift ρ}

/-- The shift has an assigner, which goes by the journal. -/
def Paced (plan : Plan) (journal : Journal) (shift : Shift ρ) : Prop :=
  ∃ assigner, shift.assigner = some assigner ∧ assigner.Keeps plan.settings journal

/-- A wake-up ends the pause and leaves the pacing as it is. -/
theorem Paced.wakeAssigner (paced : shift.Paced plan journal) :
    shift.wakeAssigner.Paced plan journal := by
  simp only [Shift.wakeAssigner]
  split
  · rename_i pausing
    split
    · obtain ⟨assigner, present, keeps⟩ := paced
      cases pausing.symm.trans present
      exact ⟨_, rfl, keeps.ready⟩
    · exact paced
  · exact paced

theorem Paced.opening (present : plan.hasAssigner = true) (desk : Desk)
    (visits : List (Visit ρ)) : (Shift.opening plan desk visits).Paced plan .empty := by
  have begins (start : Shift ρ)
      (set : start.assigner = some ⟨.fresh plan.settings.assignIntervalMs, false,
        some ⟨plan.settings.assignIntervalMs.toNat, 0⟩⟩) :
      start.wakeAssigner.Paced plan .empty := by
    refine Paced.wakeAssigner ⟨_, set, rfl, rfl, fun alarm same => ?_⟩
    cases same
    exact (Nat.zero_add _).symm
  simp only [Shift.opening, present, if_true]
  split
  · exact begins _ rfl
  · exact begins _ rfl

/-- A pass that is over is paced by all passes up to it. -/
theorem paced_endPass (shift : Shift ρ) {assigner : Assigner}
    (keeps : assigner.Keeps plan.settings journal) {result : PassResult}
    (answer : Except Setback (List (Uuid × String)))
    (told : Pass.result ⟨answer, shift.desk.board.jobs.pendingCount⟩ = result) :
    (shift.endPass plan result assigner.pacing).Paced plan
      (journal.close shift.clock answer shift.desk) := by
  refine ⟨_, rfl, ?_, rfl, ?_⟩
  · rw [keeps.pacing, ← told]
    exact (Pacing.ofPasses_concat ..).symm
  · intro alarm same
    cases same
    rfl

/-- A turn of the assigner is entered. -/
theorem Paced.assignTurn (paced : shift.Paced plan journal) (moment : Moment) :
    (shift.assignTurn plan moment).Paced plan
      (journal.enter shift.clock (shift.desk.assign moment)) := by
  obtain ⟨assigner, present, keeps⟩ := paced
  simp only [Shift.assignTurn, Journal.enter, present]
  cases shift.desk.assign moment with
  | mk answer desk =>
    cases answer with
    | error setback =>
      exact paced_endPass { shift with desk := desk } keeps (.error setback) rfl
    | ok outcome =>
      cases found : outcome.pair? with
      | none =>
        simp only [AssignmentOutcome.isAssigned, found, Option.isSome_none, Bool.false_eq_true,
          if_false]
        refine paced_endPass { shift with desk := desk } keeps (.ok journal.pairs) ?_
        simp only [Pass.result, passResult, keeps.bound]
      | some pair =>
        simp only [AssignmentOutcome.isAssigned, found, Option.isSome_some, if_true]
        refine ⟨_, rfl, keeps.pacing, by simp, ?_⟩
        intro alarm same
        cases same

theorem assigner_sweepTurn (plan : Plan) (moment : Moment) (shift : Shift ρ) :
    (shift.sweepTurn plan moment).assigner = shift.assigner := by
  simp only [sweepTurn]
  split <;> rfl

theorem assigner_visitTurn (moment : Moment) (shift : Shift ρ) :
    (shift.visitTurn moment).assigner = shift.assigner := by
  simp only [visitTurn]
  split
  · rfl
  · split
    · rfl
    · split <;> rfl

/-- An advance keeps to the journal, whoever has a turn and whatever calls the assigner. -/
theorem Paced.advance (paced : shift.Paced plan journal) {next : Shift ρ}
    (advanced : shift.advance plan = some next) : next.Paced plan (journal.note plan shift) := by
  simp only [Shift.advance] at advanced
  cases waiting : shift.queue with
  | cons party queue =>
    simp only [waiting, Option.some.injEq] at advanced
    subst advanced
    simp only [Shift.takeTurn, Journal.note, waiting]
    apply Paced.wakeAssigner
    cases party with
    | assigner =>
      have ready : Paced plan journal { shift with queue := queue, turns := shift.turns + 1 } :=
        paced
      exact ready.assignTurn _
    | sweeper =>
      obtain ⟨assigner, present, keeps⟩ := paced
      exact ⟨assigner, (assigner_sweepTurn ..).trans present, keeps⟩
    | visitor =>
      obtain ⟨assigner, present, keeps⟩ := paced
      exact ⟨assigner, (assigner_visitTurn ..).trans present, keeps⟩
  | nil =>
    simp only [waiting] at advanced
    obtain ⟨due, called, _, _, equal⟩ := moveOn_eq_some advanced
    rw [foldl_silence] at equal
    subst equal
    obtain ⟨assigner, present, keeps⟩ := paced
    simp only [Journal.note, waiting, present]
    by_cases rung : Party.assigner ∈ called
    · exact ⟨_, if_pos rung, keeps.ready⟩
    · exact ⟨_, if_neg rung, keeps⟩

theorem Paced.run (present : plan.hasAssigner = true) (desk : Desk) (visits : List (Visit ρ))
    (count : Nat) :
    ((Shift.opening plan desk visits).runFor plan count).Paced plan
      (.ofRun plan (Shift.opening plan desk visits) count) := by
  induction count with
  | zero => exact .opening present desk visits
  | succ count ih =>
    rw [runFor_succ]
    cases advanced : ((Shift.opening plan desk visits).runFor plan count).advance plan with
    | some next => exact ih.advance advanced
    | none =>
      -- a shift that is over has nobody in its queue, so that nothing is entered
      have nobody : ((Shift.opening plan desk visits).runFor plan count).queue = [] := by
        cases waiting : ((Shift.opening plan desk visits).runFor plan count).queue with
        | nil => rfl
        | cons party queue => simp [Shift.advance, waiting] at advanced
      simp only [Journal.ofRun, Journal.note, nobody]
      exact ih

/-- The assigner waits the interval after a pass that came to something or had nothing to do, and at
first. After so many passes without one like that it waits as long as the backoff says, which counts
them from zero and as far as a word does. In the course of such a streak the waits become no shorter
and stay within the greatest pause, and no wait at all exceeds that and the interval. In a shift,
whoever else is there and whether wake-ups or alarms begin the passes, the alarm of the assigner
always rings that long after the end of its last pass. -/
theorem waits_by_streak (settings : Settings) :
    let wait (passes : List Pass) := (Pacing.ofPasses settings passes).delayMs
    (∀ earlier streak : List Pass, Pacing.Settled earlier →
        (∀ pass ∈ streak, pass.isUnproductive = true) →
        wait earlier = settings.assignIntervalMs
          ∧ (∀ count, streak.length = count + 1 → wait (earlier ++ streak) =
            settings.backoff.delay (UInt32.ofNat (min count (2 ^ 32 - 1))))
          ∧ ∀ first rest, first ≠ [] → streak = first ++ rest →
            wait (earlier ++ first) ≤ wait (earlier ++ streak)
              ∧ wait (earlier ++ streak) ≤ settings.backoff.maxMs)
      ∧ (∀ passes, (wait passes).toNat ≤
        max settings.assignIntervalMs.toNat settings.backoff.maxMs.toNat)
      ∧ ∀ (plan : Plan) (desk : Desk) (visits : List (Visit ρ)) (count : Nat),
        plan.settings = settings → plan.hasAssigner = true →
        let start := opening plan desk visits
        let journal := Journal.ofRun plan start count
        ∃ assigner, (start.runFor plan count).assigner = some assigner
          ∧ assigner.pacing.delayMs = wait journal.passes
          ∧ ∀ alarm, assigner.alarm = some alarm →
            alarm.due = journal.since + (wait journal.passes).toNat := by
  intro wait
  refine ⟨fun earlier streak settled unproductive => ⟨?_, ?_, ?_⟩,
    Pacing.delayMs_le_max settings, ?_⟩
  · show (Pacing.ofPasses settings earlier).delayMs = _
    rw [settled.ofPasses_eq]
    rfl
  · exact fun count length => settled.delayMs_eq unproductive length
  · rintro first rest some rfl
    exact ⟨settled.delayMs_mono some unproductive,
      settled.delayMs_le_maxMs (fun none => some (List.append_eq_nil_iff.1 none).1) unproductive⟩
  · rintro plan desk visits count rfl there start journal
    obtain ⟨assigner, present, keeps⟩ := Paced.run there desk visits count
    refine ⟨assigner, present, congrArg _ keeps.pacing, fun alarm set => ?_⟩
    rw [keeps.alarm alarm set, keeps.pacing]

/-- A shift with an assigner alone. -/
def lonelyPlan : Plan := { briskPlan with hasAssigner := true, hasSweeper := false }

/-- After half a second somebody submits a job, for which there is no engine. -/
def lonelyShift : Shift Unit :=
  opening lonelyPlan (.initial lonelyPlan.settings)
    [⟨500, fun moment desk => ((),
      ((Operation.submit ⟨"in", "out", Binary64.zero false, 1⟩).perform moment desk).2)⟩]

/-- The wake-up begins one pass, and its alarm two more. After the third, at eight tenths of a
second, the assigner waits for the first pause doubled twice. -/
theorem waits_by_streak_lonelyShift :
    let journal := Journal.ofRun lonelyPlan lonelyShift 7
    (∀ pass ∈ journal.passes, pass.isUnproductive = true)
      ∧ journal.passes.length = 3
      ∧ (Pacing.ofPasses lonelyPlan.settings journal.passes).delayMs = 400
      ∧ ∃ assigner alarm, (lonelyShift.runFor lonelyPlan 7).assigner = some assigner
        ∧ assigner.alarm = some alarm ∧ alarm.due = 800 + 400 := by
  intro journal
  have unproductive : ∀ pass ∈ journal.passes, pass.isUnproductive = true := by
    have each : (journal.passes.map Pass.isUnproductive).all id = true := by decide +kernel
    simpa using each
  have length : journal.passes.length = 3 := by decide +kernel
  have since : journal.since = 800 := by decide +kernel
  have pausing :
      ((lonelyShift.runFor lonelyPlan 7).assigner.bind Assigner.alarm).isSome = true := by
    decide +kernel
  have third : lonelyPlan.settings.backoff.delay (UInt32.ofNat (min 2 (2 ^ 32 - 1))) = 400 := by
    decide +kernel
  obtain ⟨streaks, -, shifts⟩ := @waits_by_streak Unit lonelyPlan.settings
  have settled : Pacing.Settled [] := fun _ none => by cases none
  have wait : (Pacing.ofPasses lonelyPlan.settings journal.passes).delayMs = 400 :=
    ((streaks [] journal.passes settled unproductive).2.1 2 length).trans third
  obtain ⟨assigner, present, -, rings⟩ : ∃ assigner,
      (lonelyShift.runFor lonelyPlan 7).assigner = some assigner ∧ _ :=
    shifts lonelyPlan _ _ 7 rfl rfl
  rw [present] at pausing
  obtain ⟨alarm, set⟩ := Option.isSome_iff_exists.1 pausing
  refine ⟨unproductive, length, wait, assigner, alarm, present, set, (rings alarm set).trans ?_⟩
  exact congrArg₂ _ since (congrArg UInt64.toNat wait)

end Shift

end JobDispatch.Background
