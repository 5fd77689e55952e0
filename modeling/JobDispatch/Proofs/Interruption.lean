import JobDispatch.Proofs.Disk
set_option autoImplicit false

/- A save may end anywhere: a call fails, or the process stops in the midst of it, and the next one
finds what is left. What is left is a document that is whole, and perhaps a draft, which nothing
reads. -/
namespace JobDispatch

/-- Where the process stops in a save: between two stages, or in the stage of writing when so many
bytes are in the draft. The other stages are single calls, each of which takes place as a whole. -/
inductive Halt where
  | between (stages : Nat)
  | midWrite (size : Nat)
deriving DecidableEq, Repr

/-- One save, with the calls that fail in it and the place where the process stops. -/
structure Attempt where
  board : Board
  mishaps : Mishaps
  halt : Halt

/-- The rename has taken place. -/
def SaveStage.isPlaced : SaveStage → Bool
  | settling => true
  | finished (.ok _) => true
  | _ => false

namespace Disk

/-- The disk that is left when the process stops in a save. -/
def halted (content : ByteArray) (mishaps : Mishaps) (disk : Disk) : Halt → Disk
  | .between stages => (saving content mishaps disk stages).1
  | .midWrite size =>
    match saving content mishaps disk 1 with
    | (opened, .writing) => ⟨opened.document, .file (content.extract 0 size), opened.reachable⟩
    | (unopened, _) => unopened

/-- The disk after some saves in a row, each of them stopped somewhere. -/
def afterAttempts (disk : Disk) (attempts : List Attempt) : Disk :=
  attempts.foldl
    (fun reached attempt =>
      reached.halted attempt.board.documentBytes attempt.mishaps attempt.halt) disk

/-- At some stage of a save the draft, which holds the new text, takes the place of the document. -/
def Renames (content : ByteArray) (mishaps : Mishaps) (disk : Disk) : Prop :=
  ∃ stages, (saving content mishaps disk stages).2 = .placing
    ∧ (saving content mishaps disk stages).1 = ⟨disk.document, .file content, disk.reachable⟩
    ∧ saving content mishaps disk (stages + 1) =
      (⟨.file content, .vacant, disk.reachable⟩, .settling)

/-- The document is the old one before the rename and the new one after it. -/
theorem document_saving (content : ByteArray) (mishaps : Mishaps) (disk : Disk) (stages : Nat) :
    (saving content mishaps disk stages).1.document =
      if (saving content mishaps disk stages).2.isPlaced then .file content else disk.document := by
  have progress := progress_saving content mishaps disk stages
  generalize saving content mishaps disk stages = reached at progress
  obtain ⟨reached, stage⟩ := reached
  cases stage with
  | creating => exact congrArg Disk.document progress
  | writing => exact progress.1
  | syncing => exact progress.1
  | placing => exact progress.1
  | cleaning cause => exact progress
  | settling => exact progress.1
  | finished result =>
    cases result with
    | ok _ => exact progress.1
    | error refusal => exact progress

/-- While the draft is written, the document is the old one. -/
theorem document_halted_midWrite (content : ByteArray) (mishaps : Mishaps) (disk : Disk)
    (size : Nat) : (disk.halted content mishaps (.midWrite size)).document = disk.document := by
  have created : (saving content mishaps disk 1).1.document = disk.document := by
    simp only [saving, advance, create]
    split <;> rfl
  simp only [halted]
  split
  · rename_i reached
    rw [reached] at created
    exact created
  · rename_i reached
    rw [reached] at created
    exact created

/-- Wherever the process stops, the document is whole: the old one or the new one. -/
theorem document_halted (content : ByteArray) (mishaps : Mishaps) (disk : Disk) (halt : Halt) :
    (disk.halted content mishaps halt).document = disk.document
      ∨ (disk.halted content mishaps halt).document = .file content := by
  cases halt with
  | between stages =>
    have document := document_saving content mishaps disk stages
    rw [halted, document]
    split
    · exact .inr rfl
    · exact .inl rfl
  | midWrite size => exact .inl (document_halted_midWrite content mishaps disk size)

/-- After any number of saves the document is the first one or the whole text of one of the
saves. -/
theorem document_afterAttempts (disk : Disk) (attempts : List Attempt) :
    (disk.afterAttempts attempts).document = disk.document
      ∨ ∃ attempt ∈ attempts,
        (disk.afterAttempts attempts).document = .file attempt.board.documentBytes := by
  induction attempts generalizing disk with
  | nil => exact .inl rfl
  | cons attempt attempts ih =>
    have first := document_halted attempt.board.documentBytes attempt.mishaps disk attempt.halt
    rcases ih (disk.halted attempt.board.documentBytes attempt.mishaps attempt.halt) with
      kept | ⟨later, member, placed⟩
    · rcases first with old | new
      · exact .inl (kept.trans old)
      · exact .inr ⟨attempt, List.mem_cons_self, kept.trans new⟩
    · exact .inr ⟨later, List.mem_cons_of_mem _ member, placed⟩

/-- A save goes through exactly when its rename takes place. -/
theorem save_eq_ok_iff_renames (content : ByteArray) (mishaps : Mishaps) (disk : Disk) :
    (disk.save content mishaps).2 = .ok () ↔ disk.Renames content mishaps := by
  constructor
  · intro saved
    obtain ⟨⟨reachable, document, draft⟩, ⟨created, written, synced, renamed⟩⟩ :=
      save_eq_ok_iff.1 saved
    refine ⟨3, ?_, ?_, ?_⟩ <;>
      simp [saving, advance, create, write, sync, rename, reachable, document, draft, created,
        written, synced, renamed]
  · rintro ⟨stages, -, -, placed⟩
    have cleared := cleared_saving content mishaps disk (stages + 1)
    rw [placed] at cleared
    exact save_eq_ok_iff.2 cleared

/-- A save that goes through leaves the new document and no draft. -/
theorem disk_of_save_ok {content : ByteArray} {mishaps : Mishaps} {disk : Disk}
    (saved : (disk.save content mishaps).2 = .ok ()) :
    disk.save content mishaps = (⟨.file content, .vacant, disk.reachable⟩, .ok ()) := by
  obtain ⟨⟨reachable, document, draft⟩, ⟨created, written, synced, renamed⟩⟩ :=
    save_eq_ok_iff.1 saved
  simp [save, saving, saveStages, SaveStage.ahead, advance, create, write, sync, rename,
    SaveStage.result?, reachable, document, draft, created, written, synced, renamed]

/-- What a save that has failed leaves of its draft once it has ended: nothing, if the removal
works. A folder in the place of the draft is not removed. -/
def Tidied (mishaps : Mishaps) (before : Disk) : Disk × SaveStage → Prop
  | (disk, .finished (.error _)) =>
    disk.draft = .vacant ∨ mishaps.remove = true ∨ before.draft.isFolder = true
  | (disk, _) => disk.draft.isFolder = true → before.draft.isFolder = true

theorem tidied_advance {content : ByteArray} {mishaps : Mishaps} {before disk : Disk}
    {stage : SaveStage} (tidied : Tidied mishaps before (disk, stage)) :
    Tidied mishaps before (advance content mishaps (disk, stage)) := by
  cases stage with
  | creating =>
    simp only [advance, create]
    split
    · exact tidied
    · intro folder
      cases folder
  | writing =>
    simp only [advance, write]
    split
    · intro folder
      cases folder
    · intro folder
      cases folder
  | syncing =>
    simp only [advance, sync]
    split <;> exact tidied
  | placing =>
    simp only [advance, rename]
    split
    · exact tidied
    · intro folder
      cases folder
  | cleaning cause =>
    simp only [advance, remove]
    split
    · rename_i stuck
      rcases Bool.or_eq_true _ _ ▸ stuck with failed | folder
      · exact .inr (.inl failed)
      · exact .inr (.inr (tidied folder))
    · exact .inl rfl
  | settling =>
    rw [advance_settling]
    exact tidied
  | finished result => exact tidied

theorem tidied_saving (content : ByteArray) (mishaps : Mishaps) (disk : Disk) (stages : Nat) :
    Tidied mishaps disk (saving content mishaps disk stages) := by
  induction stages with
  | zero => exact id
  | succ stages ih => exact tidied_advance ih

theorem draft_of_save_error {content : ByteArray} {mishaps : Mishaps} {disk : Disk}
    {refusal : Refusal} (failed : (disk.save content mishaps).2 = .error refusal) :
    (disk.save content mishaps).1.draft = .vacant ∨ mishaps.remove = true
      ∨ disk.draft.isFolder = true := by
  have tidied := tidied_saving content mishaps disk saveStages
  have ended := isSome_result?_saving content mishaps disk
  simp only [save] at failed ⊢
  generalize saving content mishaps disk saveStages = reached at tidied ended failed
  obtain ⟨reached, stage⟩ := reached
  cases stage with
  | finished result =>
    cases failed
    exact tidied
  | _ => cases ended

/-- Two disks with one document. Their drafts differ at most in what they hold. -/
structure Alike (disk other : Disk) : Prop where
  document : disk.document = other.document
  reachable : disk.reachable = other.reachable
  folder : disk.draft.isFolder = other.draft.isFolder

/-- No stage reads a draft that it has not written: on two disks that differ in what their drafts
hold, the same stage follows. The drafts that are renamed hold the new text on both. -/
theorem Alike.advance {content : ByteArray} {first second disk other : Disk} {stage : SaveStage}
    (alike : disk.Alike other) (mishaps : Mishaps)
    (progress : Progress content first (disk, stage))
    (otherProgress : Progress content second (other, stage)) :
    (Disk.advance content mishaps (disk, stage)).2 = (Disk.advance content mishaps (other, stage)).2
      ∧ (Disk.advance content mishaps (disk, stage)).1.Alike
        (Disk.advance content mishaps (other, stage)).1 := by
  obtain ⟨document, reachable, folder⟩ := alike
  cases stage with
  | creating =>
    simp only [Disk.advance, create, reachable, folder]
    split
    · exact ⟨rfl, document, reachable, folder⟩
    · exact ⟨rfl, document, rfl, rfl⟩
  | writing =>
    simp only [Disk.advance, write]
    split <;> exact ⟨rfl, document, reachable, rfl⟩
  | syncing =>
    simp only [Disk.advance, sync]
    split <;> exact ⟨rfl, document, reachable, folder⟩
  | placing =>
    have drafts : disk.draft = other.draft := progress.2.2.trans otherProgress.2.2.symm
    simp only [Disk.advance, rename, document]
    split
    · exact ⟨rfl, document, reachable, folder⟩
    · exact ⟨rfl, drafts, reachable, rfl⟩
  | cleaning cause =>
    simp only [Disk.advance, remove, folder]
    split
    · exact ⟨rfl, document, reachable, folder⟩
    · exact ⟨rfl, document, reachable, rfl⟩
  | settling =>
    rw [advance_settling, advance_settling]
    exact ⟨rfl, document, reachable, folder⟩
  | finished result => exact ⟨rfl, document, reachable, folder⟩

theorem Alike.saving {disk other : Disk} (alike : disk.Alike other) (content : ByteArray)
    (mishaps : Mishaps) (stages : Nat) :
    (Disk.saving content mishaps disk stages).2 = (Disk.saving content mishaps other stages).2
      ∧ (Disk.saving content mishaps disk stages).1.Alike
        (Disk.saving content mishaps other stages).1 := by
  induction stages with
  | zero => exact ⟨rfl, alike⟩
  | succ stages ih =>
    obtain ⟨stage, reached⟩ := ih
    have progress := progress_saving content mishaps disk stages
    have otherProgress := progress_saving content mishaps other stages
    simp only [Disk.saving]
    generalize Disk.saving content mishaps disk stages = here at stage reached progress
    generalize Disk.saving content mishaps other stages = there at stage reached otherProgress
    obtain ⟨here, _⟩ := here
    obtain ⟨there, _⟩ := there
    cases stage
    exact reached.advance mishaps progress otherProgress

theorem Alike.save {disk other : Disk} (alike : disk.Alike other) (content : ByteArray)
    (mishaps : Mishaps) :
    (disk.save content mishaps).2 = (other.save content mishaps).2
      ∧ (disk.save content mishaps).1.Alike (other.save content mishaps).1 := by
  obtain ⟨stage, reached⟩ := alike.saving content mishaps saveStages
  simp only [Disk.save, stage]
  exact ⟨trivial, reached⟩

theorem Alike.halted {disk other : Disk} (alike : disk.Alike other) (content : ByteArray)
    (mishaps : Mishaps) (halt : Halt) :
    (disk.halted content mishaps halt).Alike (other.halted content mishaps halt) := by
  cases halt with
  | between stages => exact (alike.saving content mishaps stages).2
  | midWrite size =>
    obtain ⟨stage, reached⟩ := alike.saving content mishaps 1
    simp only [Disk.halted]
    generalize Disk.saving content mishaps disk 1 = here at stage reached
    generalize Disk.saving content mishaps other 1 = there at stage reached
    obtain ⟨here, hereStage⟩ := here
    obtain ⟨there, thereStage⟩ := there
    cases stage
    cases hereStage with
    | writing => exact ⟨reached.document, reached.reachable, rfl⟩
    | _ => exact reached

theorem Alike.afterAttempts {disk other : Disk} (alike : disk.Alike other)
    (attempts : List Attempt) :
    (disk.afterAttempts attempts).Alike (other.afterAttempts attempts) := by
  induction attempts generalizing disk other with
  | nil => exact alike
  | cons attempt attempts ih => exact ih (alike.halted _ _ _)

theorem Alike.load {disk other : Disk} (alike : disk.Alike other) : disk.load = other.load :=
  load_congr alike.document alike.reachable

/-- Wherever the process stops in a save, the document is the old one or the whole new one: the old
one before the rename, the new one after it. The save goes through exactly when the rename takes
place, whether or not the folder is synced afterwards. One that fails leaves the old document, and a
draft only where it could not be removed. What a draft holds that was left behind is never seen: not
by a load or a save, and not after any number of saves that were stopped anywhere. -/
theorem save_all_or_nothing (board : Board) (mishaps : Mishaps) (disk : Disk) :
    let content := board.documentBytes
    let saved := disk.save content mishaps
    (∀ halt, (disk.halted content mishaps halt).document = disk.document
        ∨ (disk.halted content mishaps halt).document = .file content)
      ∧ (∀ stages, (disk.halted content mishaps (.between stages)).document =
        if (saving content mishaps disk stages).2.isPlaced then .file content else disk.document)
      ∧ (∀ size, (disk.halted content mishaps (.midWrite size)).document = disk.document)
      ∧ (saved.2 = .ok () ↔ disk.Renames content mishaps)
      ∧ (saved.2 = .ok () → ∀ fails, disk.save content { mishaps with syncFolder := fails } =
        (⟨.file content, .vacant, disk.reachable⟩, .ok ()))
      ∧ (∀ refusal, saved.2 = .error refusal → saved.1.document = disk.document
        ∧ (saved.1.draft = .vacant ∨ mishaps.remove = true ∨ disk.draft.isFolder = true))
      ∧ ∀ (attempts : List Attempt) (leftover : ByteArray),
        let littered := Disk.afterAttempts ⟨disk.document, .file leftover, disk.reachable⟩ attempts
        let tidy := Disk.afterAttempts ⟨disk.document, .vacant, disk.reachable⟩ attempts
        (littered.document = disk.document
            ∨ ∃ attempt ∈ attempts, littered.document = .file attempt.board.documentBytes)
          ∧ littered.document = tidy.document
          ∧ littered.load = tidy.load
          ∧ (littered.save content mishaps).2 = (tidy.save content mishaps).2
          ∧ ∀ stages, (saving content mishaps littered stages).2 =
              (saving content mishaps tidy stages).2
            ∧ (saving content mishaps littered stages).1.document =
              (saving content mishaps tidy stages).1.document := by
  intro content saved
  refine ⟨document_halted content mishaps disk, document_saving content mishaps disk,
    document_halted_midWrite content mishaps disk, save_eq_ok_iff_renames content mishaps disk,
    ?_, ?_, ?_⟩
  · intro accepted fails
    obtain ⟨clear, ⟨created, written, synced, renamed⟩⟩ := save_eq_ok_iff.1 accepted
    exact disk_of_save_ok (save_eq_ok_iff.2 ⟨clear, created, written, synced, renamed⟩)
  · intro refusal failed
    exact ⟨(document_of_save_error (Prod.ext rfl failed)).1, draft_of_save_error failed⟩
  · intro attempts leftover littered tidy
    have drafts : Alike ⟨disk.document, .file leftover, disk.reachable⟩
        ⟨disk.document, .vacant, disk.reachable⟩ := ⟨rfl, rfl, rfl⟩
    have alike : littered.Alike tidy := drafts.afterAttempts attempts
    refine ⟨document_afterAttempts _ attempts, alike.document, alike.load,
      (alike.save content mishaps).1, fun stages => ?_⟩
    obtain ⟨stage, reached⟩ := alike.saving content mishaps stages
    exact ⟨stage, reached.document⟩

/-- A document and a draft that an earlier save left behind. -/
def littered : Disk := ⟨.file "old".toUTF8, .file "draft".toUTF8, true⟩

/-- A save whose draft is cut off in the middle and cannot be removed fails over the old document;
one after which only the folder cannot be synced goes through. -/
theorem save_all_or_nothing_littered :
    let content := Board.empty.documentBytes
    let torn : Mishaps := { write := some 3, remove := true }
    (∃ refusal, (littered.save content torn).2 = .error refusal)
      ∧ (littered.save content torn).1.document = .file "old".toUTF8
      ∧ (littered.halted content torn (.midWrite 1)).document = .file "old".toUTF8
      ∧ littered.save content { syncFolder := true } = (⟨.file content, .vacant, true⟩, .ok ()) := by
  intro content torn
  have failed : ∃ refusal, (littered.save content torn).2 = .error refusal := ⟨_, rfl⟩
  obtain ⟨refusal, refused⟩ := failed
  obtain ⟨-, -, midway, -, -, kept, -⟩ := save_all_or_nothing Board.empty torn littered
  obtain ⟨-, -, -, -, placed, -, -⟩ := save_all_or_nothing Board.empty .none littered
  exact ⟨⟨refusal, refused⟩, (kept refusal refused).1, midway 1, placed rfl true⟩

end Disk

end JobDispatch
