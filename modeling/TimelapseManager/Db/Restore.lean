import TimelapseManager.Lib.Interrupted

/-!
# Restoring the database file

`restore_into_place` writes the copy beside the database, sets the live file and its sidecars aside
and renames the copy into place.  Every rename and unlink is one step before which the process may
crash and which may fail.  SQLite replays the `-wal` and the hot `-journal` it finds beside a
database file, so what counts is the file together with these two: `opens` is what is found at the
database path.

`restoreIntoPlace_triple`: wherever it is interrupted, the file and the sidecars beside it are those
from before, or they are the copy without sidecars, or the path has no file.  The last is the case
exactly if there was a file and a step after the one that sets it aside is hit
(`opens_old_or_restored`).
-/

namespace TimelapseManager.Db.Restore

open Interrupted
open Function (update update_of_ne update_self)

abbrev Text := List Char

variable {Blob Image : Type*}

abbrev Files (Blob : Type*) := Text → Option Blob

/-! ## Names -/

def wal : Text := ['-', 'w', 'a', 'l']

def journal : Text := ['-', 'j', 'o', 'u', 'r', 'n', 'a', 'l']

def shm : Text := ['-', 's', 'h', 'm']

def sidecar (name suffix : Text) : Text := name ++ suffix

def restoreMark : Text := ['.', 'r', 'e', 's', 't', 'o', 'r', 'e', '-']

def tmpMark : Text := ['.', 't', 'm', 'p']

def replacedMark : Text := ['.', 'r', 'e', 'p', 'l', 'a', 'c', 'e', 'd', '-']

def orphanMark : Text := ['.', 'o', 'r', 'p', 'h', 'a', 'n', '-']

def stagedName (database stamp : Text) : Text :=
  database ++ (restoreMark ++ stamp ++ tmpMark)

def replacedName (database stamp : Text) : Text :=
  database ++ (replacedMark ++ stamp)

def orphanName (stray stamp : Text) : Text := stray ++ (orphanMark ++ stamp)

/-! ## Steps -/

def replace (source target : Text) (files : Files Blob) : Option (Files Blob) :=
  (files source).map fun blob =>
    update (update files target (some blob)) source none

def replaceQuietly (source target : Text) (files : Files Blob) : Option (Files Blob) :=
  match files source with
  | none => some files
  | some blob => some (update (update files target (some blob)) source none)

def unlinkQuietly (name : Text) (files : Files Blob) : Option (Files Blob) :=
  some (update files name none)

def createExclusive (name : Text) (empty : Blob) (files : Files Blob) : Option (Files Blob) :=
  match files name with
  | some _ => none
  | none => some (update files name (some empty))

def write (name : Text) (blob : Blob) (files : Files Blob) : Option (Files Blob) :=
  some (update files name (some blob))

/-- The file comes to hold the drafts, one after the other, and at last the copy. -/
def writeAll (name : Text) (copy : Blob) : List Blob → Prog (Files Blob)
  | [] => .act (write name copy)
  | draft :: drafts => .seq (.act (write name draft)) (writeAll name copy drafts)

/-- `backup_memory_to_file`: the drafts are what the file holds while it is written. -/
def backupMemoryToFile (name : Text) (empty : Blob) (drafts : List Blob) (copy : Blob) :
    Prog (Files Blob) :=
  .seq (.act (createExclusive name empty))
    (.protect (writeAll name copy drafts) (.act (unlinkQuietly name)))

/-- The live file is set aside, and its sidecars with it. -/
def setAside (database stamp : Text) : Prog (Files Blob) :=
  .branch (fun files => (files (replacedName database stamp)).isSome)
    (.seq (.act (unlinkQuietly (stagedName database stamp))) .raise)
    (.seq (.act (replace database (replacedName database stamp)))
      (.seq
        (.act (replaceQuietly (sidecar database wal) (sidecar (replacedName database stamp) wal)))
        (.act (replaceQuietly (sidecar database journal)
          (sidecar (replacedName database stamp) journal)))))

def moveStray (stamp stray : Text) : Prog (Files Blob) :=
  .branch (fun files => (files stray).isSome) (.act (replace stray (orphanName stray stamp))) .skip

def restoreIntoPlace (database stamp : Text) (empty : Blob) (drafts : List Blob) (copy : Blob) :
    Prog (Files Blob) :=
  .seq (backupMemoryToFile (stagedName database stamp) empty drafts copy)
    -- The mode of the staged file is changed, which no content depends on.
    (.seq (.act some)
      (.seq (.branch (fun files => (files database).isSome) (setAside database stamp) .skip)
        (.seq (.act (unlinkQuietly (sidecar database shm)))
          (.seq (moveStray stamp (sidecar database wal))
            (.seq (moveStray stamp (sidecar database journal))
              (.act (replace (stagedName database stamp) database)))))))

/-! ## What is found at the path -/

/-- What SQLite opens at the path: the file, with the `-wal` and the `-journal` found beside it
replayed; nothing if there is no file. -/
def opens (replay : Blob → Option Blob → Option Blob → Image) (files : Files Blob)
    (database : Text) : Option Image :=
  (files database).map fun main =>
    replay main (files (sidecar database wal)) (files (sidecar database journal))

/-- A restore, the files before it and the faults of its steps. -/
structure Setting (Blob : Type*) where
  database : Text
  stamp : Text
  empty : Blob
  drafts : List Blob
  copy : Blob
  old : Files Blob
  faults : ℕ → Fault

/-- The files that count: the database with the sidecars that are replayed, and the copy. -/
inductive Place
  | main
  | wal
  | journal
  | staged
  deriving DecidableEq

/-- What the name of the file adds to that of the database. -/
def Place.suffix (stamp : Text) : Place → Text
  | .main => []
  | .wal => Restore.wal
  | .journal => Restore.journal
  | .staged => restoreMark ++ stamp ++ tmpMark

namespace Setting

variable (restore : Setting Blob)

def file : Place → Text
  | .main => restore.database
  | .wal => sidecar restore.database wal
  | .journal => sidecar restore.database journal
  | .staged => stagedName restore.database restore.stamp

abbrev stagedFile : Text := restore.file .staged

abbrev replacedFile : Text := replacedName restore.database restore.stamp

def view (files : Files Blob) : Place → Option Blob := files ∘ restore.file

/-- The file is none of those that count. -/
def Aside (name : Text) : Prop := ∀ place, restore.file place ≠ name

end Setting

section Names

variable {restore : Setting Blob} {place : Place} {suffix : Text}

theorem file_eq (place : Place) :
    restore.file place = restore.database ++ place.suffix restore.stamp := by
  cases place <;> simp [Setting.file, Place.suffix, sidecar, stagedName]

theorem file_injective (restore : Setting Blob) : Function.Injective restore.file := by
  intro first second hSame
  rw [file_eq, file_eq] at hSame
  have hSuffix := List.append_cancel_left hSame
  cases first <;> cases second <;> simp_all [Place.suffix, wal, journal, restoreMark]

theorem aside_append (hSuffix : ∀ place, Place.suffix restore.stamp place ≠ suffix) :
    restore.Aside (restore.database ++ suffix) := by
  intro place hSame
  rw [file_eq] at hSame
  exact hSuffix place (List.append_cancel_left hSame)

theorem aside_replaced : restore.Aside restore.replacedFile :=
  aside_append fun place => by
    cases place <;> simp [Place.suffix, wal, journal, replacedMark, restoreMark]

theorem aside_replacedSidecar : restore.Aside (sidecar restore.replacedFile suffix) := by
  unfold sidecar Setting.replacedFile replacedName
  rw [List.append_assoc]
  refine aside_append fun place => ?_
  cases place <;> simp [Place.suffix, wal, journal, replacedMark, restoreMark]

theorem aside_orphan (hSide : place = .wal ∨ place = .journal) :
    restore.Aside (orphanName (restore.file place) restore.stamp) := by
  unfold orphanName
  rw [file_eq, List.append_assoc]
  refine aside_append fun other => ?_
  rcases hSide with rfl | rfl <;> cases other <;>
    simp [Place.suffix, wal, journal, orphanMark, restoreMark]

theorem aside_shm : restore.Aside (sidecar restore.database shm) :=
  aside_append fun place => by cases place <;> simp [Place.suffix, wal, journal, shm, restoreMark]

end Names

/-! ## What the steps do to the view -/

section Steps

variable {restore : Setting Blob} {name target : Text} {files next : Files Blob}
  {blob : Option Blob}

theorem view_update (place : Place) : restore.view (update files (restore.file place) blob) =
    update (restore.view files) place blob :=
  Function.update_comp_eq_of_injective _ (file_injective restore) _ _

theorem view_update_aside (hAside : restore.Aside name) :
    restore.view (update files name blob) = restore.view files :=
  funext fun place => update_of_ne (hAside place) _ _

theorem view_replace {place : Place} (hAside : restore.Aside target)
    (hStep : replace (restore.file place) target files = some next) :
    restore.view next = update (restore.view files) place none := by
  obtain ⟨blob, -, rfl⟩ := Option.map_eq_some_iff.mp hStep
  rw [view_update, view_update_aside hAside]

theorem view_replaceQuietly {place : Place} (hAside : restore.Aside target)
    (hStep : replaceQuietly (restore.file place) target files = some next) :
    restore.view next = update (restore.view files) place none := by
  unfold replaceQuietly at hStep
  split at hStep
  next hMissing =>
    cases hStep
    exact (Function.update_eq_self_iff.mpr hMissing.symm).symm
  next blob hFile =>
    cases hStep
    rw [view_update, view_update_aside hAside]

end Steps

/-! ## The stages -/

namespace Setting

variable (restore : Setting Blob)

/-- The files that are left. -/
def files : Files Blob :=
  ((restoreIntoPlace restore.database restore.stamp restore.empty restore.drafts restore.copy).run
    restore.faults 0 restore.old).2.1

/-- There is a live file, it is set aside (the step that follows the staged copy and its mode), and
one of the four steps from there to the rename of the staged copy is hit. -/
structure StoppedBetween : Prop where
  live : restore.old restore.database ≠ none
  stagedFree : restore.old restore.stagedFile = none
  replacedFree : restore.old restore.replacedFile = none
  reached : FineBefore restore.faults (restore.drafts.length + 4)
  hit : ∃ step, restore.drafts.length + 4 ≤ step ∧ step < restore.drafts.length + 8 ∧
    restore.faults step ≠ .fine

/-- Only the staged file is another one than before. -/
def Untouched (files : Files Blob) : Prop :=
  ∃ blob, files = update restore.old restore.stagedFile blob

/-- The copy is staged, after so many steps besides its drafts. -/
def Staged (steps clock : ℕ) (files : Files Blob) : Prop :=
  files = update restore.old restore.stagedFile (some restore.copy) ∧
    restore.old restore.stagedFile = none ∧ clock = restore.drafts.length + steps

/-- The path is free.  If a file was set aside, so many steps were made. -/
structure SetAside (steps clock : ℕ) (files : Files Blob) : Prop where
  main : restore.view files .main = none
  staged : restore.view files .staged = some restore.copy
  window : restore.old restore.database ≠ none →
    restore.old restore.stagedFile = none ∧
      restore.old restore.replacedFile = none ∧
      clock = restore.drafts.length + steps

def Restored (files : Files Blob) : Prop :=
  restore.view files = update (fun _ => none) .main (some restore.copy)

/-- What may be found wherever the restore is interrupted. -/
inductive Left (files : Files Blob) : Prop
  | free (hMain : files restore.database = none)
      (hLive : restore.old restore.database ≠ none → restore.StoppedBetween)
  | untouched (hNot : ¬ restore.StoppedBetween) (hUntouched : restore.Untouched files)
  | restored (hNot : ¬ restore.StoppedBetween) (hRestored : restore.Restored files)

end Setting

section Triples

variable {restore : Setting Blob} {clock steps : ℕ} {files : Files Blob}

/-! ### Staging -/

theorem untouched_update (hUntouched : restore.Untouched files) (blob : Option Blob) :
    restore.Untouched
      (update files restore.stagedFile blob) := by
  obtain ⟨staged, rfl⟩ := hUntouched
  exact ⟨blob, Function.update_idem _ _ _⟩

/-- A fault up to the step that sets the live file aside. -/
theorem not_stopped_of_early (hHit : restore.faults clock ≠ .fine)
    (hEarly : clock < restore.drafts.length + 4) : ¬ restore.StoppedBetween :=
  fun hStopped => hHit (hStopped.reached clock hEarly)

theorem writeAll_triple (rest : List Blob) :
    Triple restore.faults
      (fun clock files => restore.Untouched files ∧
        restore.old restore.stagedFile = none ∧
        clock + rest.length + 1 = restore.drafts.length + 2)
      (writeAll restore.stagedFile restore.copy rest)
      (restore.Staged 2)
      (fun files => ¬ restore.StoppedBetween ∧ restore.Untouched files) := by
  induction rest with
  | nil =>
    refine Triple.act ?_ nofun ?_
    · rintro clock files - ⟨hUntouched, -, hClock⟩ hHit
      exact ⟨not_stopped_of_early hHit (by omega), hUntouched⟩
    · rintro clock files next ⟨⟨staged, rfl⟩, hFree, hClock⟩ hStep
      cases hStep
      exact ⟨Function.update_idem _ _ _, hFree, by simpa using hClock⟩
  | cons draft rest ih =>
    refine Triple.seq (Triple.act ?_ nofun ?_) ih
    · rintro clock files - ⟨hUntouched, -, hClock⟩ hHit
      exact ⟨not_stopped_of_early hHit (by omega), hUntouched⟩
    · rintro clock files next ⟨hUntouched, hFree, hClock⟩ hStep
      cases hStep
      exact ⟨untouched_update hUntouched (some draft), hFree, by simp at hClock; omega⟩

theorem backupMemoryToFile_triple :
    Triple restore.faults (fun clock files => files = restore.old ∧ clock = 0)
      (backupMemoryToFile restore.stagedFile restore.empty restore.drafts
        restore.copy)
      (restore.Staged 2)
      (fun files => ¬ restore.StoppedBetween ∧ restore.Untouched files) := by
  have hOld : restore.Untouched restore.old := ⟨_, (Function.update_eq_self _ _).symm⟩
  refine Triple.seq (Triple.act ?_ ?_ ?_) (Triple.protect (writeAll_triple restore.drafts) ?_)
  · rintro clock files - ⟨rfl, rfl⟩ hHit
    exact ⟨not_stopped_of_early hHit (by omega), hOld⟩
  · -- The name of the staged file is taken.
    rintro clock files ⟨rfl, rfl⟩ hStuck
    refine ⟨fun hStopped => ?_, hOld⟩
    simp [createExclusive, hStopped.stagedFree] at hStuck
  · rintro clock files next ⟨rfl, rfl⟩ hStep
    unfold createExclusive at hStep
    cases hFile : restore.old restore.stagedFile with rw [hFile] at hStep
    | some blob => cases hStep
    | none =>
      cases hStep
      exact ⟨untouched_update hOld (some restore.empty), rfl, by omega⟩
  · rintro files next ⟨hNot, hUntouched⟩ hStep
    cases hStep
    exact ⟨hNot, untouched_update hUntouched none⟩

/-! ### The live file -/

/-- A fault while the path is free. -/
theorem left_of_setAside (hFine : FineBefore restore.faults clock)
    (hAside : restore.SetAside steps clock files) (hHit : restore.faults clock ≠ .fine)
    (hSteps : 4 ≤ steps ∧ steps < 8) : restore.Left files := by
  refine .free hAside.main fun hLive => ?_
  obtain ⟨hStaged, hReplaced, rfl⟩ := hAside.window hLive
  exact ⟨hLive, hStaged, hReplaced, fun step hStep => hFine step (by omega),
    _, by omega, by omega, hHit⟩

theorem Setting.SetAside.sidecar {next : Files Blob} {place : Place}
    (hSide : place = .wal ∨ place = .journal) (hAside : restore.SetAside steps clock files)
    (hView : restore.view next = update (restore.view files) place none) :
    restore.SetAside steps clock next := by
  rcases hSide with rfl | rfl
  all_goals
    refine ⟨?_, ?_, hAside.window⟩ <;> rw [hView]
    · exact hAside.main
    · exact hAside.staged

theorem Setting.SetAside.next (hAside : restore.SetAside steps clock files) :
    restore.SetAside (steps + 1) (clock + 1) files := { hAside with
  window := fun hLive => by
    obtain ⟨hStaged, hReplaced, hClock⟩ := hAside.window hLive
    exact ⟨hStaged, hReplaced, by omega⟩ }

variable {place : Place}

/-- A sidecar of the live file goes with it. -/
theorem moveSidecar_triple (kept : (Place → Option Blob) → Prop)
    (hSide : place = .wal ∨ place = .journal) (hSteps : 4 ≤ steps ∧ steps < 8)
    (hKept : ∀ view, kept view → kept (update view place none)) :
    Triple restore.faults
      (fun clock files => restore.SetAside steps clock files ∧ kept (restore.view files))
      (.act (replaceQuietly (restore.file place)
        (sidecar restore.replacedFile (place.suffix restore.stamp))))
      (fun clock files => restore.SetAside (steps + 1) clock files ∧
        kept (restore.view files) ∧ restore.view files place = none)
      restore.Left := by
  refine Triple.act ?_ ?_ ?_
  · rintro clock files hFine ⟨hAside, -⟩ hHit
    exact left_of_setAside hFine hAside hHit hSteps
  · intro clock files _ hStuck
    unfold replaceQuietly at hStuck
    split at hStuck <;> cases hStuck
  · rintro clock files next ⟨hAside, hBefore⟩ hStep
    have hView := view_replaceQuietly aside_replacedSidecar hStep
    refine ⟨(hAside.sidecar hSide hView).next, ?_⟩
    rw [hView]
    exact ⟨hKept _ hBefore, update_self _ _ _⟩

/-- A sidecar that is found without a live file is moved as well. -/
theorem moveStray_triple (kept : (Place → Option Blob) → Prop)
    (hSide : place = .wal ∨ place = .journal)
    (hKept : ∀ view, kept view → kept (update view place none))
    (hGone : ∀ view, kept view → restore.old restore.database ≠ none → view place = none) :
    Triple restore.faults
      (fun clock files => restore.SetAside 7 clock files ∧ kept (restore.view files))
      (moveStray restore.stamp (restore.file place))
      (fun clock files => restore.SetAside 7 clock files ∧
        kept (restore.view files) ∧ restore.view files place = none)
      restore.Left := by
  refine Triple.branch (Triple.act ?_ ?_ ?_) (Triple.skip ?_)
  · rintro clock files hFine ⟨⟨hAside, -⟩, -⟩ hHit
    exact left_of_setAside hFine hAside hHit (by decide)
  · rintro clock files ⟨-, hSome⟩ hStuck
    rw [Option.map_eq_none_iff.mp hStuck] at hSome
    cases hSome
  · rintro clock files next ⟨⟨hAside, hBefore⟩, hSome⟩ hStep
    have hView := view_replace (aside_orphan hSide) hStep
    refine ⟨{ hAside.sidecar hSide hView with window := fun hLive => ?_ }, ?_⟩
    · have hMissing : files (restore.file place) = none := hGone _ hBefore hLive
      rw [hMissing] at hSome
      cases hSome
    · rw [hView]
      exact ⟨hKept _ hBefore, update_self _ _ _⟩
  · rintro clock files ⟨⟨hAside, hBefore⟩, hMissing⟩
    exact ⟨hAside, hBefore, Option.not_isSome_iff_eq_none.mp (Bool.eq_false_iff.mp hMissing)⟩

/-- The sidecars of a live file are gone with it. -/
def Setting.SidecarsGone (restore : Setting Blob) (view : Place → Option Blob) : Prop :=
  restore.old restore.database ≠ none → view .wal = none ∧ view .journal = none

/-- A name that is taken: the staged file is removed and the restore refused. -/
theorem refused_triple {after : ℕ → Files Blob → Prop} :
    Triple restore.faults
      (fun clock files => restore.Staged 3 clock files ∧
        (files restore.replacedFile).isSome = true)
      (.seq (.act (unlinkQuietly restore.stagedFile)) .raise) after
      restore.Left := by
  have hTaken : ∀ {clock} {files : Files Blob}, restore.Staged 3 clock files →
      (files restore.replacedFile).isSome = true →
        ¬ restore.StoppedBetween := by
    rintro clock files ⟨rfl, -, -⟩ hSome hStopped
    rw [update_of_ne (aside_replaced .staged).symm, hStopped.replacedFree] at hSome
    cases hSome
  have hRaise : Triple restore.faults (fun _ => restore.Left) .raise after restore.Left :=
    Triple.raise fun _ _ hLeft => hLeft
  refine Triple.seq (Triple.act ?_ nofun ?_) hRaise
  · rintro clock files - ⟨hStaged, hSome⟩ hHit
    exact .untouched (hTaken hStaged hSome) ⟨_, hStaged.1⟩
  · rintro clock files next ⟨hStaged, hSome⟩ hStep
    cases hStep
    exact .untouched (hTaken hStaged hSome) (untouched_update ⟨_, hStaged.1⟩ none)

theorem setAside_triple :
    Triple restore.faults
      (fun clock files => restore.Staged 3 clock files ∧ (files restore.database).isSome = true)
      (setAside restore.database restore.stamp)
      (fun clock files =>
        restore.SetAside 6 clock files ∧ restore.SidecarsGone (restore.view files))
      restore.Left := by
  have hReplace : Triple restore.faults
      (fun clock files => (restore.Staged 3 clock files ∧ (files restore.database).isSome = true) ∧
        (files restore.replacedFile).isSome = false)
      (.act (replace restore.database restore.replacedFile))
      (fun clock files => restore.SetAside 4 clock files ∧ True) restore.Left := by
    refine Triple.act ?_ ?_ ?_
    · rintro clock files - ⟨⟨⟨hFiles, -, hClock⟩, -⟩, -⟩ hHit
      exact .untouched (not_stopped_of_early hHit (by omega)) ⟨_, hFiles⟩
    · rintro clock files ⟨⟨-, hSome⟩, -⟩ hStuck
      rw [Option.map_eq_none_iff.mp hStuck] at hSome
      cases hSome
    · rintro clock files next ⟨⟨⟨hFiles, hFree, hClock⟩, -⟩, hNotTaken⟩ hStep
      have hView : restore.view next = update (restore.view files) .main none :=
        view_replace aside_replaced hStep
      rw [hFiles, view_update] at hView
      refine ⟨⟨by rw [hView]; rfl, by rw [hView]; rfl, fun _ => ?_⟩, trivial⟩
      rw [hFiles, update_of_ne (aside_replaced .staged).symm] at hNotTaken
      exact ⟨hFree, by simpa using hNotTaken, by omega⟩
  have hWal := @moveSidecar_triple _ restore 4 .wal (fun _ => True) (Or.inl rfl) (by decide)
    fun _ _ => trivial
  have hJournal := @moveSidecar_triple _ restore 5 .journal (fun view => True ∧ view .wal = none)
    (Or.inr rfl) (by decide) fun _ hKept => hKept
  refine Triple.branch (fun clock files hFine hBoth =>
    refused_triple clock files hFine ⟨hBoth.1.1, hBoth.2⟩) (hReplace.seq (hWal.seq ?_))
  exact hJournal.weaken (fun _ _ hAll => ⟨hAll.1, fun _ => ⟨hAll.2.1.2, hAll.2.2⟩⟩)
    fun _ hLeft => hLeft

/-- The copy comes into place, the last of the steps. -/
theorem placed_triple :
    Triple restore.faults
      (fun clock files => restore.SetAside 7 clock files ∧
        (restore.SidecarsGone (restore.view files) ∧ restore.view files .wal = none) ∧
        restore.view files .journal = none)
      (.act (replace restore.stagedFile restore.database))
      (fun clock files => restore.Restored files ∧
        (restore.old restore.database ≠ none → clock = restore.drafts.length + 8))
      restore.Left := by
  refine Triple.act ?_ ?_ ?_
  · rintro clock files hFine ⟨hAside, -⟩ hHit
    exact left_of_setAside hFine hAside hHit (by decide)
  · rintro clock files ⟨hAside, -⟩ hStuck
    have hStaged : files restore.stagedFile = some restore.copy :=
      hAside.staged
    rw [Option.map_eq_none_iff.mp hStuck] at hStaged
    cases hStaged
  · rintro clock files next ⟨hAside, ⟨-, hWal⟩, hJournal⟩ hStep
    obtain ⟨blob, hBlob, rfl⟩ := Option.map_eq_some_iff.mp hStep
    have hCopy : blob = restore.copy := Option.some.inj (hBlob.symm.trans hAside.staged)
    refine ⟨?_, fun hLive => (hAside.next.window hLive).2.2⟩
    have hMain : restore.view (update files restore.database (some blob)) =
        update (restore.view files) .main (some restore.copy) := by
      rw [hCopy]
      exact view_update .main
    unfold Setting.Restored
    rw [view_update, hMain]
    funext place
    cases place with
    | main | staged => rfl
    | wal => exact hWal
    | journal => exact hJournal

/-- Step by step: the copy is staged, the live file set aside with its sidecars, strays are moved
and the copy comes into place. -/
theorem restoreIntoPlace_triple :
    Triple restore.faults (fun clock files => files = restore.old ∧ clock = 0)
      (restoreIntoPlace restore.database restore.stamp restore.empty restore.drafts restore.copy)
      (fun clock files => restore.Restored files ∧
        (restore.old restore.database ≠ none → clock = restore.drafts.length + 8))
      restore.Left := by
  have hInTheWay : ∀ files, ¬ restore.StoppedBetween ∧ restore.Untouched files →
      restore.Left files := fun _ hLeft => .untouched hLeft.1 hLeft.2
  have hStage := backupMemoryToFile_triple.weaken (fun _ _ hStaged => hStaged) hInTheWay
  have hMode : Triple restore.faults
      (restore.Staged 2)
      (.act some) (restore.Staged 3) restore.Left := by
    refine Triple.act ?_ nofun ?_
    · rintro clock files - ⟨hFiles, -, hClock⟩ hHit
      exact .untouched (not_stopped_of_early hHit (by omega)) ⟨_, hFiles⟩
    · rintro clock files next ⟨hFiles, hFree, hClock⟩ hStep
      cases hStep
      exact ⟨hFiles, hFree, by omega⟩
  have hLive : Triple restore.faults (restore.Staged 3)
      (.branch (fun files => (files restore.database).isSome)
        (setAside restore.database restore.stamp) .skip)
      (fun clock files =>
        restore.SetAside 6 clock files ∧ restore.SidecarsGone (restore.view files))
      restore.Left := by
    refine Triple.branch setAside_triple (Triple.skip ?_)
    rintro clock files ⟨⟨rfl, -, -⟩, hMissing⟩
    have hOther : restore.database ≠ restore.stagedFile :=
      (file_injective restore).ne (by decide : Place.main ≠ .staged)
    have hMain : restore.old restore.database = none := by
      rw [update_of_ne hOther] at hMissing
      exact Option.not_isSome_iff_eq_none.mp (by rw [hMissing]; decide)
    refine ⟨⟨?_, ?_, fun hLive => absurd hMain hLive⟩, fun hLive => absurd hMain hLive⟩ <;>
      rw [view_update]
    · exact hMain
    · rfl
  have hShm : Triple restore.faults
      (fun clock files =>
        restore.SetAside 6 clock files ∧ restore.SidecarsGone (restore.view files))
      (.act (unlinkQuietly (sidecar restore.database shm)))
      (fun clock files =>
        restore.SetAside 7 clock files ∧ restore.SidecarsGone (restore.view files))
      restore.Left := by
    refine Triple.act ?_ nofun ?_
    · rintro clock files hFine ⟨hAside, -⟩ hHit
      exact left_of_setAside hFine hAside hHit (by decide)
    · rintro clock files next ⟨hAside, hGone⟩ hStep
      cases hStep
      have hView : restore.view (update files (sidecar restore.database shm) none) =
          restore.view files := view_update_aside aside_shm
      refine ⟨{ hAside.next with main := ?_, staged := ?_ }, ?_⟩ <;> rw [hView]
      · exact hAside.main
      · exact hAside.staged
      · exact hGone
  have hWal := @moveStray_triple _ restore .wal restore.SidecarsGone (Or.inl rfl)
    (fun _ hGone hLive => ⟨rfl, (hGone hLive).2⟩) fun _ hGone hLive => (hGone hLive).1
  have hJournal := @moveStray_triple _ restore .journal
    (fun view => restore.SidecarsGone view ∧ view .wal = none) (Or.inr rfl)
    (fun _ hKept => ⟨fun _ => ⟨hKept.2, rfl⟩, hKept.2⟩) fun _ hKept hLive => (hKept.1 hLive).2
  exact hStage.seq (hMode.seq (hLive.seq (hShm.seq (hWal.seq (hJournal.seq placed_triple)))))

end Triples

/-! ## The result -/

/-- For every state of the old database and its sidecars and all faults: what is opened afterwards
is what was opened before, or the copy and nothing else, exactly if the restore was not stopped
between the rename of the live file and that of the copy. -/
theorem opens_old_or_restored (replay : Blob → Option Blob → Option Blob → Image)
    (restore : Setting Blob) :
    (opens replay restore.files restore.database = opens replay restore.old restore.database ∨
        opens replay restore.files restore.database = some (replay restore.copy none none)) ↔
      ¬ restore.StoppedBetween := by
  have hLeft : restore.Left restore.files := by
    refine restoreIntoPlace_triple.everywhere ?_ ⟨rfl, rfl⟩
    rintro clock files hFine ⟨hRestored, hClock⟩
    refine .restored (fun hStopped => ?_) hRestored
    obtain ⟨step, -, hStep, hHit⟩ := hStopped.hit
    exact hHit (hFine step (hClock hStopped.live ▸ hStep))
  cases hLeft with
  | free hMain hLive =>
    have hNone : opens replay restore.files restore.database = none := by
      unfold opens
      rw [hMain]
      rfl
    rw [hNone]
    constructor
    · rintro (hOld | hCopy) hStopped
      · exact hStopped.live (Option.map_eq_none_iff.mp hOld.symm)
      · cases hCopy
    · intro hNot
      have hOld : restore.old restore.database = none := not_not.mp fun hSome => hNot (hLive hSome)
      left
      unfold opens
      rw [hOld]
      rfl
  | untouched hNot hUntouched =>
    refine ⟨fun _ => hNot, fun _ => Or.inl ?_⟩
    obtain ⟨blob, hFiles⟩ := hUntouched
    have hSame : ∀ place, place ≠ .staged →
        restore.files (restore.file place) = restore.old (restore.file place) := by
      intro place hOther
      rw [hFiles]
      exact update_of_ne ((file_injective restore).ne hOther) _ _
    have hMain : restore.files restore.database = restore.old restore.database := hSame .main (by decide)
    have hWal : restore.files (sidecar restore.database wal) =
        restore.old (sidecar restore.database wal) := hSame .wal (by decide)
    have hJournal : restore.files (sidecar restore.database journal) =
        restore.old (sidecar restore.database journal) := hSame .journal (by decide)
    unfold opens
    rw [hMain, hWal, hJournal]
  | restored hNot hView =>
    refine ⟨fun _ => hNot, fun _ => Or.inr ?_⟩
    have hMain : restore.files restore.database = some restore.copy := congrFun hView .main
    have hWal : restore.files (sidecar restore.database wal) = none := congrFun hView .wal
    have hJournal : restore.files (sidecar restore.database journal) = none :=
      congrFun hView .journal
    unfold opens
    rw [hMain, hWal, hJournal]
    rfl

/-- A database whose last transactions are still in its `-wal`, and the faults of the restore. -/
def liveRestore (faults : ℕ → Fault) : Setting String where
  database := ['d', 'b']
  stamp := ['1']
  empty := ""
  drafts := []
  copy := "new pages"
  old := fun name =>
    if name = ['d', 'b'] then some "old pages"
    else if name = sidecar ['d', 'b'] wal then some "old log"
    else none
  faults := faults

/-- The process crashes when the live file has been set aside: the path has neither the old
database nor the copy. -/
theorem nothing_to_open :
    let restore := liveRestore fun step => if step = 4 then .crash else .fine
    opens (fun main log undo => (main, log, undo)) restore.files restore.database = none ∧
      opens (fun main log undo => (main, log, undo)) restore.old restore.database =
        some ("old pages", some "old log", none) := by
  exact ⟨by decide +kernel, by decide +kernel⟩

/-- Without a fault the copy is found. -/
example : opens (fun main log undo => (main, log, undo)) (liveRestore fun _ => .fine).files
    ['d', 'b'] = some ("new pages", none, none) := by
  decide +kernel

end TimelapseManager.Db.Restore
