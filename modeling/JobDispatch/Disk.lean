import JobDispatch.Snapshot
set_option autoImplicit false

/- Where the document is kept. A save writes a draft beside the document and then renames it, in
stages, so that the document is at every moment either the old one or the new one. -/
namespace JobDispatch

/-- What is found at a place: nothing, a file, or a folder that is not empty. -/
inductive Entry where
  | vacant
  | file (content : ByteArray)
  | folder

namespace Entry

def content? : Entry → Option ByteArray
  | file content => some content
  | _ => none

def isVacant : Entry → Bool
  | vacant => true
  | _ => false

def isFolder : Entry → Bool
  | folder => true
  | _ => false

end Entry

/-- The place of the document and the place of its draft; neither can be reached when the folder
that should hold them does not exist. -/
structure Disk where
  document : Entry
  draft : Entry
  reachable : Bool

/-- Which calls of one save fail. A write that fails leaves the beginning of the text behind. -/
structure Mishaps where
  create : Bool := false
  write : Option Nat := none
  sync : Bool := false
  rename : Bool := false
  remove : Bool := false
  syncFolder : Bool := false
deriving DecidableEq, Repr

def Mishaps.none : Mishaps := {}

inductive SaveStage where
  | creating
  | writing
  | syncing
  | placing
  | cleaning (cause : Refusal)
  | settling
  | finished (result : Except Refusal Unit)

/-- What a save came to; nothing while it goes on. -/
def SaveStage.result? : SaveStage → Option (Except Refusal Unit)
  | finished result => some result
  | _ => none

/-- The greatest number of stages that lie ahead. -/
def SaveStage.ahead : SaveStage → Nat
  | creating => 5
  | writing => 4
  | syncing => 3
  | placing => 2
  | cleaning _ => 1
  | settling => 1
  | finished _ => 0

namespace Disk

/-- The first stage: an empty draft. -/
def create (mishaps : Mishaps) (disk : Disk) : Disk × SaveStage :=
  if mishaps.create || !disk.reachable || disk.draft.isFolder then
    (disk, .cleaning (.storage "the draft cannot be created"))
  else (⟨disk.document, .file ByteArray.empty, disk.reachable⟩, .writing)

/-- The second stage: the text in the draft, or the beginning of it. -/
def write (content : ByteArray) (mishaps : Mishaps) (disk : Disk) : Disk × SaveStage :=
  match mishaps.write with
  | some size =>
    (⟨disk.document, .file (content.extract 0 size), disk.reachable⟩,
      .cleaning (.storage "the draft cannot be written"))
  | none => (⟨disk.document, .file content, disk.reachable⟩, .syncing)

/-- The third stage: the draft reaches the medium. -/
def sync (mishaps : Mishaps) (disk : Disk) : Disk × SaveStage :=
  if mishaps.sync then (disk, .cleaning (.storage "the draft cannot be synced"))
  else (disk, .placing)

/-- The fourth stage: the draft takes the place of the document, which no folder may hold. -/
def rename (mishaps : Mishaps) (disk : Disk) : Disk × SaveStage :=
  if mishaps.rename || disk.document.isFolder then
    (disk, .cleaning (.storage "the draft cannot be renamed"))
  else (⟨disk.draft, .vacant, disk.reachable⟩, .settling)

/-- After a failure: the draft is removed, if that works. -/
def remove (mishaps : Mishaps) (cause : Refusal) (disk : Disk) : Disk × SaveStage :=
  if mishaps.remove || disk.draft.isFolder then (disk, .finished (.error cause))
  else (⟨disk.document, .vacant, disk.reachable⟩, .finished (.error cause))

def syncFolder (mishaps : Mishaps) : Except Refusal Unit :=
  if mishaps.syncFolder then .error (.storage "the folder cannot be synced") else .ok ()

/-- After the rename: the document is in place already, so that a folder which cannot be synced does
not make the save fail. -/
def settle (mishaps : Mishaps) (disk : Disk) : Disk × SaveStage :=
  match syncFolder mishaps with
  | .ok () => (disk, .finished (.ok ()))
  | .error _ => (disk, .finished (.ok ()))

def advance (content : ByteArray) (mishaps : Mishaps) :
    Disk × SaveStage → Disk × SaveStage
  | (disk, .creating) => disk.create mishaps
  | (disk, .writing) => disk.write content mishaps
  | (disk, .syncing) => disk.sync mishaps
  | (disk, .placing) => disk.rename mishaps
  | (disk, .cleaning cause) => disk.remove mishaps cause
  | (disk, .settling) => disk.settle mishaps
  | (disk, .finished result) => (disk, .finished result)

/-- The disk and the stage after so many stages of a save. -/
def saving (content : ByteArray) (mishaps : Mishaps) (disk : Disk) : Nat → Disk × SaveStage
  | 0 => (disk, .creating)
  | stages + 1 => advance content mishaps (saving content mishaps disk stages)

/-- The number of stages after which every save is finished. -/
def saveStages : Nat := SaveStage.creating.ahead

@[simp] theorem settle_eq (mishaps : Mishaps) (disk : Disk) :
    disk.settle mishaps = (disk, .finished (.ok ())) := by
  simp only [settle]
  split <;> rfl

theorem advance_settling (content : ByteArray) (mishaps : Mishaps) (disk : Disk) :
    advance content mishaps (disk, .settling) = (disk, .finished (.ok ())) := settle_eq ..

/-- Every stage brings a save nearer to its end. -/
theorem ahead_advance (content : ByteArray) (mishaps : Mishaps) (disk : Disk) (stage : SaveStage) :
    (advance content mishaps (disk, stage)).2.ahead ≤ stage.ahead - 1 := by
  cases stage with
  | creating =>
    simp only [advance, create]
    split <;> simp [SaveStage.ahead]
  | writing =>
    simp only [advance, write]
    split <;> simp [SaveStage.ahead]
  | syncing =>
    simp only [advance, sync]
    split <;> simp [SaveStage.ahead]
  | placing =>
    simp only [advance, rename]
    split <;> simp [SaveStage.ahead]
  | cleaning cause =>
    simp only [advance, remove]
    split <;> simp [SaveStage.ahead]
  | settling => simp [advance, SaveStage.ahead]
  | finished result => simp [advance, SaveStage.ahead]

theorem ahead_saving (content : ByteArray) (mishaps : Mishaps) (disk : Disk) (stages : Nat) :
    (saving content mishaps disk stages).2.ahead ≤ saveStages - stages := by
  induction stages with
  | zero => exact Nat.le_refl _
  | succ stages ih =>
    have nearer : (saving content mishaps disk (stages + 1)).2.ahead
        ≤ (saving content mishaps disk stages).2.ahead - 1 :=
      ahead_advance content mishaps _ _
    omega

theorem isSome_result?_saving (content : ByteArray) (mishaps : Mishaps) (disk : Disk) :
    (saving content mishaps disk saveStages).2.result?.isSome := by
  have reached := ahead_saving content mishaps disk saveStages
  rw [Nat.sub_self] at reached
  generalize (saving content mishaps disk saveStages).2 = stage at reached
  cases stage <;> simp_all [SaveStage.ahead, SaveStage.result?]

def save (content : ByteArray) (mishaps : Mishaps) (disk : Disk) : Disk × Except Refusal Unit :=
  let (disk, stage) := saving content mishaps disk saveStages
  (disk, stage.result?.getD (.error (.storage "the save has not ended")))

/-- The board that the document holds; nothing without a document. -/
def load (disk : Disk) : Except Refusal (Option Board) :=
  if disk.reachable then
    match disk.document with
    | .vacant => .ok none
    | .folder => .error (.storage "a folder is in the place of the document")
    | .file content => (Board.ofBytes? content).map some
  else .ok none

end Disk

end JobDispatch
