import JobDispatch.Proofs.Disk
import JobDispatch.Proofs.Snapshot
set_option autoImplicit false

namespace JobDispatch

namespace Board

/-- A board can be kept as a document exactly when every save of it that goes through is loaded as
the same board, with all records in order; one at which no call fails does go through. The boards
that are loaded, from whatever bytes, are exactly these. -/
theorem storable_iff_kept (board : Board) :
    (board.Storable ↔ ∀ (disk after : Disk) (mishaps : Mishaps),
        disk.save board.documentBytes mishaps = (after, .ok ()) → after.load = .ok (some board))
      ∧ (∀ disk : Disk, disk.reachable = true → disk.document.isFolder = false →
        disk.draft.isFolder = false → (disk.save board.documentBytes .none).2 = .ok ())
      ∧ (board.Storable ↔ ∃ content, ofBytes? content = .ok board)
      ∧ (board.Storable ↔ ∃ disk : Disk, disk.load = .ok (some board)) := by
  have again (storable : board.Storable) (disk after : Disk) (mishaps : Mishaps)
      (saved : disk.save board.documentBytes mishaps = (after, .ok ())) :
      after.load = .ok (some board) := by
    rw [Disk.load_of_save_ok saved, ofBytes?_documentBytes storable]
    rfl
  have read (disk : Disk) (loaded : disk.load = .ok (some board)) : board.Storable := by
    obtain ⟨_, content, _, read⟩ := Disk.load_eq_ok_some.1 loaded
    exact storable_of_ofBytes? read
  have placed : (Disk.mk .vacant .vacant true).save board.documentBytes .none =
      (⟨.file board.documentBytes, .vacant, true⟩, .ok ()) := Disk.save_none _ rfl rfl rfl
  refine ⟨⟨again, ?_⟩, ?_, ⟨?_, ?_⟩, ⟨?_, ?_⟩⟩
  · intro kept
    exact read _ (kept _ _ _ placed)
  · intro disk reachable document draft
    rw [Disk.save_none _ reachable document draft]
  · intro storable
    exact ⟨board.documentBytes, ofBytes?_documentBytes storable⟩
  · rintro ⟨content, held⟩
    exact storable_of_ofBytes? held
  · intro storable
    exact ⟨_, again storable _ _ _ placed⟩
  · rintro ⟨disk, loaded⟩
    exact read disk loaded

-- the letters of the document are taken one by one
set_option maxRecDepth 2000

/-- A document without engines that files two jobs under one id, spelled in two ways. The first
record breaks the rules and has another id, but only the second one counts. -/
def respelledDocument : String :=
  "[\x7b\"0000000000000000000000000000000A\": [\"bbbbbbbb-0000-4000-8000-000000000000\", \"\",
    \"\", 0, \"completed\", null, null, null, 1, 0, null, \"2024-01-01T00:00:00Z\",
    \"2024-01-01T00:00:00Z\", null], \"00000000-0000-0000-0000-00000000000a\":
    [\"0000000000000000000000000000000a\", \"in\", \"\\u00e4\", -0, \"pending\", null, null, null,
    0, 4294967295, null, \"-0001-01-01 00:00:00.5+01:00\", \"2016-12-31t23:59:60.5 UTC\",
    null]\x7d]"

theorem storable_iff_kept_respelledDocument :
    ∃ board, ofBytes? respelledDocument.toUTF8 = .ok board
      ∧ (board.jobs.records.map fun job => (job.targetCodec, job.jobSize, job.updatedAt.nanos)) =
        [("ä", Binary64.zero true, 1500000000)]
      ∧ board.Storable
      ∧ ∀ (disk after : Disk) (mishaps : Mishaps),
        disk.save board.documentBytes mishaps = (after, .ok ()) →
          after.load = .ok (some board) := by
  have taken : (ofBytes? respelledDocument.toUTF8).toOption.map (fun board =>
      board.jobs.records.map fun job => (job.targetCodec, job.jobSize, job.updatedAt.nanos)) =
        some [("ä", Binary64.zero true, 1500000000)] := by
    have symbols : Text.symbolsOfBytes respelledDocument.toUTF8 =
        respelledDocument.toList.map some := Text.symbolsOfBytes_toByteArray _
    rw [ofBytes?, symbols, show respelledDocument.toList = _ from String.toList_ofList]
    decide +kernel
  cases read : ofBytes? respelledDocument.toUTF8 with
  | error refusal =>
    rw [read] at taken
    cases taken
  | ok board =>
    rw [read] at taken
    obtain ⟨kept, _, held, _⟩ := storable_iff_kept board
    have storable := held.2 ⟨_, read⟩
    exact ⟨board, rfl, Option.some.inj taken, storable, kept.1 storable⟩

end Board

end JobDispatch
