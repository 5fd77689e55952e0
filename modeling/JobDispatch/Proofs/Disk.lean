import JobDispatch.Disk
import JobDispatch.Proofs.Except
set_option autoImplicit false

namespace JobDispatch

/-- None of the calls fails on which a save depends. -/
structure Mishaps.AreMinor (mishaps : Mishaps) : Prop where
  create : mishaps.create = false
  write : mishaps.write = Option.none
  sync : mishaps.sync = false
  rename : mishaps.rename = false

namespace Disk

/-- What the disk holds at a stage of a save, beside what it held before. -/
def Progress (content : ByteArray) (before : Disk) : Disk × SaveStage → Prop
  | (disk, .creating) => disk = before
  | (disk, .writing) => disk.document = before.document ∧ disk.reachable = true
  | (disk, .syncing) =>
    disk.document = before.document ∧ disk.reachable = true ∧ disk.draft = .file content
  | (disk, .placing) =>
    disk.document = before.document ∧ disk.reachable = true ∧ disk.draft = .file content
  | (disk, .cleaning _) => disk.document = before.document
  | (disk, .settling) => disk.document = .file content ∧ disk.reachable = true
  | (disk, .finished (.ok _)) => disk.document = .file content ∧ disk.reachable = true
  | (disk, .finished (.error _)) => disk.document = before.document

/-- Whether the folder can be reached does not change. -/
theorem reachable_advance (content : ByteArray) (mishaps : Mishaps) (disk : Disk)
    (stage : SaveStage) :
    (advance content mishaps (disk, stage)).1.reachable = disk.reachable := by
  cases stage with
  | creating =>
    simp only [advance, create]
    split <;> rfl
  | writing =>
    simp only [advance, write]
    split <;> rfl
  | syncing =>
    simp only [advance, sync]
    split <;> rfl
  | placing =>
    simp only [advance, rename]
    split <;> rfl
  | cleaning cause =>
    simp only [advance, remove]
    split <;> rfl
  | settling => rw [advance_settling]
  | finished result => rfl

theorem progress_advance (content : ByteArray) (mishaps : Mishaps) (before disk : Disk)
    (stage : SaveStage) (progress : Progress content before (disk, stage)) :
    Progress content before (advance content mishaps (disk, stage)) := by
  cases stage with
  | creating =>
    have same : disk = before := progress
    subst same
    simp only [advance, create]
    split
    · rfl
    · rename_i possible
      simp only [Bool.or_eq_true, Bool.not_eq_true', not_or] at possible
      exact ⟨rfl, by simpa using possible.1.2⟩
  | writing =>
    obtain ⟨document, reachable⟩ := progress
    simp only [advance, write]
    split
    · exact document
    · exact ⟨document, reachable, rfl⟩
  | syncing =>
    obtain ⟨document, reachable, draft⟩ := progress
    simp only [advance, sync]
    split
    · exact document
    · exact ⟨document, reachable, draft⟩
  | placing =>
    obtain ⟨document, reachable, draft⟩ := progress
    simp only [advance, rename]
    split
    · exact document
    · exact ⟨draft, reachable⟩
  | cleaning cause =>
    simp only [advance, remove]
    split <;> exact progress
  | settling =>
    rw [advance_settling]
    exact progress
  | finished result => exact progress

theorem reachable_saving (content : ByteArray) (mishaps : Mishaps) (disk : Disk) (stages : Nat) :
    (saving content mishaps disk stages).1.reachable = disk.reachable := by
  induction stages with
  | zero => rfl
  | succ stages ih => exact (reachable_advance content mishaps _ _).trans ih

theorem progress_saving (content : ByteArray) (mishaps : Mishaps) (disk : Disk) (stages : Nat) :
    Progress content disk (saving content mishaps disk stages) := by
  induction stages with
  | zero => rfl
  | succ stages ih => exact progress_advance content mishaps disk _ _ ih

/-- A save ends with the answer of its last stage. -/
theorem save_spec (content : ByteArray) (mishaps : Mishaps) (disk : Disk) :
    Progress content disk ((disk.save content mishaps).1,
      .finished (disk.save content mishaps).2) := by
  have progress := progress_saving content mishaps disk saveStages
  have ended := isSome_result?_saving content mishaps disk
  simp only [save]
  generalize saving content mishaps disk saveStages = reached at progress ended
  obtain ⟨disk, stage⟩ := reached
  cases stage with
  | finished result => exact progress
  | _ => cases ended

theorem reachable_save (content : ByteArray) (mishaps : Mishaps) (disk : Disk) :
    (disk.save content mishaps).1.reachable = disk.reachable :=
  reachable_saving content mishaps disk saveStages

/-- The new document is in place after a save that succeeds. -/
theorem document_of_save_ok {content : ByteArray} {mishaps : Mishaps} {disk after : Disk}
    (saved : disk.save content mishaps = (after, .ok ())) :
    after.document = .file content ∧ after.reachable = true := by
  have spec := save_spec content mishaps disk
  rw [saved] at spec
  exact spec

/-- The old document is in place after a save that fails. -/
theorem document_of_save_error {content : ByteArray} {mishaps : Mishaps} {disk after : Disk}
    {refusal : Refusal} (failed : disk.save content mishaps = (after, .error refusal)) :
    after.document = disk.document ∧ after.reachable = disk.reachable := by
  have spec := save_spec content mishaps disk
  have reachable := reachable_save content mishaps disk
  rw [failed] at spec reachable
  exact ⟨spec, reachable⟩

/-- What is loaded depends on the document and on whether it can be reached. -/
theorem load_congr {disk other : Disk} (document : disk.document = other.document)
    (reachable : disk.reachable = other.reachable) : disk.load = other.load := by
  simp only [load, document, reachable]

/-- A save of which no call fails goes through, unless the folder is missing or another folder
stands in one of the two places. -/
theorem save_none (content : ByteArray) {disk : Disk} (reachable : disk.reachable = true)
    (document : disk.document.isFolder = false) (draft : disk.draft.isFolder = false) :
    disk.save content .none = (⟨.file content, .vacant, true⟩, .ok ()) := by
  simp [save, saving, saveStages, SaveStage.ahead, advance, create, write, sync, rename,
    Mishaps.none, SaveStage.result?, reachable, document, draft]

/-- What is loaded after a save that goes through is what the saved text holds. -/
theorem load_of_save_ok {content : ByteArray} {mishaps : Mishaps} {disk after : Disk}
    (saved : disk.save content mishaps = (after, .ok ())) :
    after.load = (Board.ofBytes? content).map some := by
  obtain ⟨document, reachable⟩ := document_of_save_ok saved
  simp only [load, document, reachable, if_true]

/-- A board that is loaded is the one that some text holds. -/
theorem load_eq_ok_some {disk : Disk} {board : Board} : disk.load = .ok (some board) ↔
    disk.reachable = true ∧ ∃ content, disk.document = .file content
      ∧ Board.ofBytes? content = .ok board := by
  simp only [load]
  constructor
  · intro loaded
    split at loaded
    · rename_i reachable
      refine ⟨reachable, ?_⟩
      split at loaded
      · cases loaded
      · cases loaded
      · rename_i content document
        obtain ⟨other, read, same⟩ := map_eq_ok.1 loaded
        cases same
        exact ⟨content, document, read⟩
    · cases loaded
  · rintro ⟨reachable, content, document, read⟩
    simp only [reachable, document, read, if_true, Except.map]

/-- Nothing stands in the way of a save: the folder is there, and no other one is in either place.
-/
structure IsClear (disk : Disk) : Prop where
  reachable : disk.reachable = true
  document : disk.document.isFolder = false
  draft : disk.draft.isFolder = false

/-- No stage of a save, whichever calls fail in it, puts anything in the way of the next one. -/
theorem IsClear.advance {disk : Disk} (clear : disk.IsClear) (content : ByteArray)
    (mishaps : Mishaps) (stage : SaveStage) :
    (Disk.advance content mishaps (disk, stage)).1.IsClear := by
  obtain ⟨reachable, document, draft⟩ := clear
  cases stage with
  | creating =>
    simp only [Disk.advance, create]
    split
    · exact ⟨reachable, document, draft⟩
    · exact ⟨reachable, document, rfl⟩
  | writing =>
    simp only [Disk.advance, write]
    split <;> exact ⟨reachable, document, rfl⟩
  | syncing =>
    simp only [Disk.advance, sync]
    split <;> exact ⟨reachable, document, draft⟩
  | placing =>
    simp only [Disk.advance, rename]
    split
    · exact ⟨reachable, document, draft⟩
    · exact ⟨reachable, draft, rfl⟩
  | cleaning cause =>
    simp only [Disk.advance, remove]
    split
    · exact ⟨reachable, document, draft⟩
    · exact ⟨reachable, document, rfl⟩
  | settling =>
    rw [advance_settling]
    exact ⟨reachable, document, draft⟩
  | finished result => exact ⟨reachable, document, draft⟩

theorem IsClear.save {disk : Disk} (clear : disk.IsClear) (content : ByteArray)
    (mishaps : Mishaps) : (disk.save content mishaps).1.IsClear := by
  have each (stages : Nat) : (saving content mishaps disk stages).1.IsClear := by
    induction stages with
    | zero => exact clear
    | succ stages ih => exact ih.advance content mishaps _
  exact each saveStages

/-- What has gone well when a save reaches a stage. A failure is one of the medium. -/
def Cleared (mishaps : Mishaps) (before : Disk) : SaveStage → Prop
  | .creating => True
  | .writing =>
    mishaps.create = false ∧ before.reachable = true ∧ before.draft.isFolder = false
  | .syncing =>
    mishaps.create = false ∧ before.reachable = true ∧ before.draft.isFolder = false
      ∧ mishaps.write = none
  | .placing =>
    mishaps.create = false ∧ before.reachable = true ∧ before.draft.isFolder = false
      ∧ mishaps.write = none ∧ mishaps.sync = false
  | .settling => before.IsClear ∧ mishaps.AreMinor
  | .finished (.ok _) => before.IsClear ∧ mishaps.AreMinor
  | .cleaning cause => ∃ detail, cause = .storage detail
  | .finished (.error cause) => ∃ detail, cause = .storage detail

theorem cleared_advance {content : ByteArray} {mishaps : Mishaps} {before disk : Disk}
    {stage : SaveStage} (progress : Progress content before (disk, stage))
    (cleared : Cleared mishaps before stage) :
    Cleared mishaps before (advance content mishaps (disk, stage)).2 := by
  cases stage with
  | creating =>
    have same : disk = before := progress
    subst same
    simp only [advance, create]
    split
    · exact ⟨_, rfl⟩
    · rename_i possible
      simp only [Bool.or_eq_true, Bool.not_eq_true', not_or, Bool.not_eq_true,
        Bool.not_eq_false] at possible
      exact ⟨possible.1.1, possible.1.2, possible.2⟩
  | writing =>
    obtain ⟨create, reachable, draft⟩ := cleared
    simp only [advance, write]
    split
    · exact ⟨_, rfl⟩
    · rename_i written
      exact ⟨create, reachable, draft, written⟩
  | syncing =>
    obtain ⟨create, reachable, draft, written⟩ := cleared
    simp only [advance, sync]
    split
    · exact ⟨_, rfl⟩
    · rename_i synced
      exact ⟨create, reachable, draft, written, by simpa using synced⟩
  | placing =>
    obtain ⟨create, reachable, draft, written, synced⟩ := cleared
    obtain ⟨document, _⟩ := progress
    simp only [advance, rename]
    split
    · exact ⟨_, rfl⟩
    · rename_i possible
      simp only [Bool.or_eq_true, not_or, Bool.not_eq_true, document] at possible
      exact ⟨⟨reachable, possible.2, draft⟩, create, written, synced, possible.1⟩
  | cleaning cause =>
    simp only [advance, remove]
    split <;> exact cleared
  | settling =>
    rw [advance_settling]
    exact cleared
  | finished result => exact cleared

theorem cleared_saving (content : ByteArray) (mishaps : Mishaps) (disk : Disk) (stages : Nat) :
    Cleared mishaps disk (saving content mishaps disk stages).2 := by
  induction stages with
  | zero => exact trivial
  | succ stages ih => exact cleared_advance (progress_saving content mishaps disk stages) ih

theorem cleared_save (content : ByteArray) (mishaps : Mishaps) (disk : Disk) :
    Cleared mishaps disk (.finished (disk.save content mishaps).2) := by
  have cleared := cleared_saving content mishaps disk saveStages
  have ended := isSome_result?_saving content mishaps disk
  simp only [save]
  generalize saving content mishaps disk saveStages = reached at cleared ended
  obtain ⟨disk, stage⟩ := reached
  cases stage with
  | finished result => exact cleared
  | _ => cases ended

/-- A save goes through exactly when nothing stands in its way and none of the calls fails on which
it depends. What is saved does not matter. -/
theorem save_eq_ok_iff {content : ByteArray} {mishaps : Mishaps} {disk : Disk} :
    (disk.save content mishaps).2 = .ok () ↔ disk.IsClear ∧ mishaps.AreMinor := by
  constructor
  · intro saved
    have cleared := cleared_save content mishaps disk
    rwa [saved] at cleared
  · rintro ⟨⟨reachable, document, draft⟩, ⟨created, written, synced, renamed⟩⟩
    simp [save, saving, saveStages, SaveStage.ahead, advance, create, write, sync, rename,
      SaveStage.result?, reachable, document, draft, created, written, synced, renamed]

/-- A save that fails tells of the medium and of nothing else. -/
theorem storage_of_save {content : ByteArray} {mishaps : Mishaps} {disk : Disk} {refusal : Refusal}
    (failed : (disk.save content mishaps).2 = .error refusal) :
    ∃ detail, refusal = .storage detail := by
  have cleared := cleared_save content mishaps disk
  rwa [failed] at cleared

end Disk

end JobDispatch
