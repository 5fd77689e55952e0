import JobDispatch.Proofs.Board.Footprint
import JobDispatch.Proofs.Desk.AnyDocument
set_option autoImplicit false

namespace JobDispatch

namespace Desk

/-- No step from one board to another moves a record or takes one away. -/
theorem Kept.records_prefix {desk after : Desk} {log : Log} (kept : desk.Kept)
    (afterKept : after.Kept) (history : desk.board.History log after.board) :
    desk.jobs.map Job.id <+: after.jobs.map Job.id
      ∧ desk.engines.map Engine.id <+: after.engines.map Engine.id := by
  have prefixes := history.keys_prefix
  rwa [kept.storable.keyed.jobKeys, kept.storable.keyed.engineKeys, afterKept.storable.keyed.jobKeys,
    afterKept.storable.keyed.engineKeys] at prefixes

end Desk

namespace Session

/-- In every state of a run, whatever document it began with, an operation touches its own records
only, and of these what is its own to change; a submission adds its job at the end, if its id is
new. An operation that is refused touches nothing. Assigning all touches the jobs and the engines
that it brings together, also when it is refused in the end. No record is moved or taken away. -/
theorem operations_touch_own {settings : Settings} {disk : Disk} {ids : IdSupply} {desk : Desk}
    (opened : Desk.start settings disk ids = .ok desk) (turns : List Turn) (moment : Moment) :
    let final := ((opening desk).run turns).desk
    (∀ operation : Operation,
      (match operation.perform moment final with
        | (.error _, after) => after.board = final.board
        | (.ok answer, after) => operation.Footprint moment.now final.board after.board answer)
      ∧ final.jobs.map Job.id <+: (operation.perform moment final).2.jobs.map Job.id
      ∧ final.engines.map Engine.id <+: (operation.perform moment final).2.engines.map Engine.id)
      ∧ (∀ pairs, (final.assignAll moment).1 = .ok pairs →
        pairs = final.boundPairs final.board.jobs.pendingCount moment)
      ∧ final.board.TouchesOnly (final.boundPairs final.board.jobs.pendingCount moment)
        (final.assignAll moment).2.board
      ∧ final.jobs.map Job.id <+: (final.assignAll moment).2.jobs.map Job.id
      ∧ final.engines.map Engine.id <+: (final.assignAll moment).2.engines.map Engine.id := by
  intro final
  have kept : final.Kept := (kept_run (Desk.kept_of_start opened) turns).1
  constructor
  · intro operation
    obtain ⟨afterKept, history⟩ := kept.perform operation moment
    refine ⟨?_, kept.records_prefix afterKept history⟩
    split
    · rename_i performed
      exact (Operation.perform_error performed).board
    · rename_i performed
      obtain ⟨staged, accepted, settles⟩ := Operation.perform_ok performed
      rw [Desk.board_of_settles settles]
      exact Operation.footprint_of_transition kept.storable accepted
  · obtain ⟨afterKept, history⟩ := kept.assignUpTo final.board.jobs.pendingCount moment
    refine ⟨fun pairs answered => ?_, history.touchesOnly_of_bound,
      kept.records_prefix afterKept history⟩
    exact (Desk.pairs_of_assignUpTo (Prod.ext answered rfl)).symm

theorem operations_touch_own_staleCompleted :
    Desk.start .standard Desk.tangled.disk Desk.tangled.ids = .ok .tangled
      ∧ ∃ after, (Operation.complete (Uuid.ofNat 11) "done").perform .first
          ((opening .tangled).run [.ask .assign .first]).desk = (.ok .completed, after)
        ∧ after.board.jobs.get? (Uuid.ofNat 14) =
          ((opening .tangled).run [.ask .assign .first]).desk.board.jobs.get? (Uuid.ofNat 14)
        ∧ after.board.engines.get? "engine" =
          ((opening .tangled).run [.ask .assign .first]).desk.board.engines.get? "engine" := by
  have opened := Desk.start_tangled
  have told : ((Operation.complete (Uuid.ofNat 11) "done").perform .first
      ((opening .tangled).run [.ask .assign .first]).desk).1 = .ok .completed := by
    decide +kernel
  have retaken : (((opening .tangled).run [.ask .assign .first]).desk.board.engines.get?
      "engine").map Engine.currentJob = some (some (Uuid.ofNat 14)) := by
    decide +kernel
  obtain ⟨touched, _⟩ :=
    (operations_touch_own opened [.ask .assign .first] .first).1 (.complete (Uuid.ofNat 11) "done")
  obtain ⟨after, performed⟩ : ∃ after, (Operation.complete (Uuid.ofNat 11) "done").perform .first
      ((opening .tangled).run [.ask .assign .first]).desk = (.ok .completed, after) :=
    ⟨_, Prod.ext told rfl⟩
  rw [performed] at touched
  obtain ⟨jobs, engines⟩ := touched
  refine ⟨opened, after, performed, jobs.get?_eq fun _ _ _ => by decide, ?_⟩
  refine engines.get?_eq fun old new known frees => ?_
  rw [known] at retaken
  have other := frees.unbound (Uuid.ofNat 14) (Option.some.inj retaken)
  exact absurd other (by decide)

end Session

end JobDispatch
