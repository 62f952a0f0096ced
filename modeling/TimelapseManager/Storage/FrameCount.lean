import TimelapseManager.Lib.Sessions
import TimelapseManager.Storage.FrameTable

/-!
# The frame counter of a project

`FrameWriter.write` and `permanent_delete` keep `Project.frame_count` next to the frame rows.  Both
read the counter through the ORM and write back an absolute value.  A write holds the write lock of
its project from before its first read to after its commit; a deletion takes no such lock.

Both are sessions (`Lib.Sessions`).  The image file, the audit event and the thumbnails are left
out: they are not in the tables modelled here, and whatever they raise is an aborted session.
-/

namespace TimelapseManager.Storage

open KeyedRows Runs Sessions

/-! ## Frames and projects -/

/-- The columns of a `project` row that are read here. -/
structure ProjectRow where
  id : ℕ
  frameCount : ℕ
  deriving DecidableEq, Repr

structure FrameStore where
  frames : FrameTable
  projects : Rows ProjectRow.id

inductive FrameError
  | valueError (message : String)
  | confirmationRequired (message : String)
  | frameNotFound (message : String)
  | integrityError
  | staleData
  deriving DecidableEq, Repr

variable {capturedAt : Int} {projectId : ℕ} {after store : FrameStore}

namespace FrameTable

/-- The slot a new row would take is taken. -/
def Occupied (table : FrameTable) (projectId sequenceIndex : ℕ) : Prop :=
  ∃ frame ∈ table.rows, frame.projectId = projectId ∧ frame.sequenceIndex = sequenceIndex

instance (table : FrameTable) (projectId sequenceIndex : ℕ) :
    Decidable (table.Occupied projectId sequenceIndex) :=
  inferInstanceAs (Decidable (∃ frame ∈ table.rows, _))

/-- `INSERT INTO frame` with the index read before; `none` is an `IntegrityError`. -/
def insert (table : FrameTable) (projectId sequenceIndex : ℕ) (capturedAt : Int) :
    Option FrameTable :=
  if hTaken : table.Occupied projectId sequenceIndex then none
  else
    some
      { rows := table.rows ++ [⟨table.lastId + 1, projectId, sequenceIndex, some capturedAt⟩]
        lastId := table.lastId + 1
        distinct := by
          refine ⟨nodup_map_append table.distinct.keys fun hId => ?_,
            nodup_map_append table.distinct.slots fun hSlot => ?_⟩
          · obtain ⟨frame, hFrame, hSame⟩ := List.mem_map.mp hId
            have hLe := table.idsLe frame hFrame
            change frame.id = table.lastId + 1 at hSame
            omega
          · obtain ⟨frame, hFrame, hSame⟩ := List.mem_map.mp hSlot
            obtain ⟨hProject, hIndex⟩ := Prod.mk.inj hSame
            exact hTaken ⟨frame, hFrame, hProject, hIndex⟩
        idsLe := by
          refine forall_mem_concat ?_ le_rfl
          exact fun frame hOld => Nat.le_succ_of_le (table.idsLe frame hOld) }

variable {table : FrameTable}

/-- `session.get(Frame, frame_id)`. -/
def frame? (table : FrameTable) (frameId : ℕ) : Option Frame :=
  table.rows.find? fun frame => frame.id = frameId

/-- The number of rows of a project. -/
def countIn (table : FrameTable) (projectId : ℕ) : ℕ :=
  (table.inProject projectId).length

theorem countIn_insert {after : FrameTable} {sequenceIndex : ℕ}
    (hInsert : table.insert projectId sequenceIndex capturedAt = some after) (other : ℕ) :
    after.countIn other = table.countIn other + if projectId = other then 1 else 0 := by
  unfold insert at hInsert
  split at hInsert
  next => cases hInsert
  next =>
    cases hInsert
    rw [countIn, inProject, List.filter_append, List.length_append, List.filter_singleton]
    by_cases hOther : projectId = other
    · simp [countIn, inProject, hOther]
    · simp [countIn, inProject, hOther]

theorem countIn_permanentDelete {frame : Frame} (hFrame : frame ∈ table.rows) (other : ℕ) :
    (table.permanentDelete frame.id).countIn other + (if frame.projectId = other then 1 else 0) =
      table.countIn other := by
  have hCount := (perm_cons_filter table.distinct.keys hFrame).countP_eq
    fun row => row.projectId = other
  rw [List.countP_cons, List.countP_eq_length_filter, List.countP_eq_length_filter] at hCount
  simp only [decide_eq_true_eq] at hCount
  exact hCount.symm

theorem insert_nextSequenceIndex (table : FrameTable) (projectId : ℕ) (capturedAt : Int) :
    table.insert projectId (table.nextSequenceIndex projectId) capturedAt =
      some (table.write projectId capturedAt) := by
  have hFree : ¬table.Occupied projectId (table.nextSequenceIndex projectId) := by
    rintro ⟨frame, hFrame, rfl, hIndex⟩
    have hLt := lt_nextSequenceIndex hFrame rfl
    omega
  unfold insert
  rw [dif_neg hFree]
  rfl

end FrameTable

/-! ## Requests -/

namespace FrameStore

/-- `UPDATE project SET frame_count = ? WHERE id = ?`. -/
def setFrameCount (store : FrameStore) (projectId frameCount : ℕ) : Except FrameError FrameStore :=
  match store.projects.find? projectId with
  | none => .error .staleData
  | some _ =>
    .ok { store with
      projects := store.projects.amend projectId
        (fun project => { project with frameCount := frameCount }) fun _ => rfl }

/-- The flush of `write`: the new row and the counter read before, plus one. -/
def flushWrite (store : FrameStore) (project : ProjectRow) (sequenceIndex : ℕ)
    (capturedAt : Int) : Except FrameError FrameStore :=
  match store.frames.insert project.id sequenceIndex capturedAt with
  | none => .error .integrityError
  | some frames => { store with frames := frames }.setFrameCount project.id (project.frameCount + 1)

/-- The flush of `permanent_delete`: the counter read before, minus one, and the row.  A row
that is gone already is a warning. -/
def flushDelete (store : FrameStore) (project : Option ProjectRow) (frameId : ℕ) :
    Except FrameError FrameStore :=
  match project with
  | none => .ok { store with frames := store.frames.permanentDelete frameId }
  | some project =>
    if 0 < project.frameCount then
      { store with frames := store.frames.permanentDelete frameId }.setFrameCount project.id
        (project.frameCount - 1)
    else .ok { store with frames := store.frames.permanentDelete frameId }

end FrameStore

/-- Sessions over the store; the locks are the projects' write locks. -/
abbrev FrameProgram := Program FrameStore ℕ FrameError

/-- `FrameWriter.write`. -/
def writeFrame (projectId : ℕ) (capturedAt : Int) : FrameProgram Unit := do
  Program.lock projectId
  match ← Program.ask fun store => store.projects.find? projectId with
  | none => .fail (.valueError ("project " ++ toString projectId ++ " does not exist"))
  | some project => do
    let sequenceIndex ← Program.ask fun store => store.frames.nextSequenceIndex projectId
    Program.change fun store => store.flushWrite project sequenceIndex capturedAt

/-- `permanent_delete`. -/
def permanentDelete (frameId : ℕ) (confirm : Bool) : FrameProgram Unit :=
  if confirm then do
    match ← Program.ask fun store => store.frames.frame? frameId with
    | none => .fail (.frameNotFound ("frame " ++ toString frameId ++ " does not exist"))
    | some frame => do
      let project ← Program.ask fun store => store.projects.find? frame.projectId
      Program.change fun store => store.flushDelete project frameId
  else .fail (.confirmationRequired "permanent deletion requires explicit confirmation")

inductive FrameRequest
  | write (projectId : ℕ) (capturedAt : Int)
  | permanentDelete (frameId : ℕ) (confirm : Bool)
  deriving DecidableEq, Repr

def serveFrame : FrameRequest → FrameProgram Unit
  | .write projectId capturedAt => writeFrame projectId capturedAt
  | .permanentDelete frameId confirm => permanentDelete frameId confirm

/-! ## A request alone -/

/-- Every counter is the number of rows of its project. -/
def CountsAgree (store : FrameStore) : Prop :=
  ∀ project ∈ store.projects.rows, project.frameCount = store.frames.countIn project.id

theorem CountsAgree.setFrameCount {frames : FrameTable} {frameCount : ℕ}
    (hAgree : CountsAgree store)
    (hSet : { store with frames := frames }.setFrameCount projectId frameCount = .ok after)
    (hCount : frameCount = frames.countIn projectId) (hOthers : ∀ other, other ≠ projectId →
      frames.countIn other = store.frames.countIn other) : CountsAgree after := by
  unfold FrameStore.setFrameCount at hSet
  split at hSet
  next => cases hSet
  next =>
    cases hSet
    intro project hMem
    dsimp only at hMem
    rcases Rows.mem_amend hMem with ⟨hId, old, -, rfl⟩ | ⟨hOld, hNe⟩
    · change frameCount = frames.countIn old.id
      rw [hCount]
      exact congrArg frames.countIn hId.symm
    · rw [hAgree project hOld]
      exact (hOthers project.id hNe).symm

theorem writeFrame_counts_agree {value : Unit} (hAgree : CountsAgree store)
    (hRun : (writeFrame projectId capturedAt).run store = .ok (value, after)) :
    CountsAgree after := by
  obtain ⟨_, _, hLock, hRest⟩ := Program.run_bind.mp hRun
  cases hLock
  obtain ⟨found, _, hAsk, hBody⟩ := Program.run_bind.mp hRest
  cases hAsk
  split at hBody
  next => cases hBody
  next project hFound =>
    obtain ⟨hProject, rfl⟩ := Rows.find?_eq_some_iff.mp hFound
    obtain ⟨sequenceIndex, _, hIndex, hChange⟩ := Program.run_bind.mp hBody
    cases hIndex
    have hFlush := Program.run_change hChange
    rw [FrameStore.flushWrite, FrameTable.insert_nextSequenceIndex] at hFlush
    have hCounts := FrameTable.countIn_insert
      (store.frames.insert_nextSequenceIndex project.id capturedAt)
    apply hAgree.setFrameCount hFlush
    · rw [hCounts, if_pos rfl, hAgree project hProject]
    · intro other hOther
      rw [hCounts, if_neg hOther.symm]
      rfl

theorem permanentDelete_counts_agree {frameId : ℕ} {confirm : Bool} {value : Unit}
    (hAgree : CountsAgree store)
    (hRun : (permanentDelete frameId confirm).run store = .ok (value, after)) :
    CountsAgree after := by
  unfold permanentDelete at hRun
  split at hRun
  next =>
    obtain ⟨found, _, hAsk, hRest⟩ := Program.run_bind.mp hRun
    cases hAsk
    split at hRest
    next => cases hRest
    next frame hFound =>
      obtain ⟨project, _, hProject, hChange⟩ := Program.run_bind.mp hRest
      cases hProject
      have hFlush := Program.run_change hChange
      have hFrame : frame ∈ store.frames.rows := List.mem_of_find?_eq_some hFound
      have hId := List.find?_some hFound
      have hId : frame.id = frameId := of_decide_eq_true hId
      subst hId
      have hCounts := FrameTable.countIn_permanentDelete hFrame
      have hOthers : ∀ other, other ≠ frame.projectId →
          (store.frames.permanentDelete frame.id).countIn other = store.frames.countIn other := by
        intro other hOther
        have hCount := hCounts other
        rwa [if_neg hOther.symm] at hCount
      have hOwn := hCounts frame.projectId
      rw [if_pos rfl] at hOwn
      dsimp only at hFlush
      cases hProject : store.projects.find? frame.projectId with
      | none =>
        -- No row of this project, so no counter either.
        rw [hProject] at hFlush
        cases hFlush
        intro project hMem
        rw [hAgree project hMem]
        symm
        apply hOthers
        intro hSame
        rw [Rows.find?_eq_some_iff.mpr ⟨hMem, hSame⟩] at hProject
        cases hProject
      | some project =>
        rw [hProject] at hFlush
        obtain ⟨hMem, hSame⟩ := Rows.find?_eq_some_iff.mp hProject
        have hBefore := hAgree project hMem
        rw [hSame] at hBefore
        unfold FrameStore.flushDelete at hFlush
        dsimp only at hFlush
        -- The frame is one of the project's, so its counter is positive.
        rw [if_pos (by omega), hSame] at hFlush
        exact hAgree.setFrameCount hFlush (by omega) hOthers
  next => cases hRun

/-! ## Captures and deletions at the same time -/

/-- Along every interleaving in which a session starts to write while what it has read still
holds, every counter is the number of frame rows of its project. -/
theorem frame_counts_agree {first : FrameStore} (hFirst : CountsAgree first)
    {labels : List (Label FrameRequest)} {last : World FrameStore ℕ FrameError Unit}
    (hRun : Run (Guarded (SessionStep serveFrame) ReadsCurrent) (.idle first) labels last) :
    CountsAgree last.committed := by
  refine committed_of_serial CountsAgree ?_ hFirst hRun
  intro request store value after hAgree hServed
  cases request with
  | write => exact writeFrame_counts_agree hAgree hServed
  | permanentDelete => exact permanentDelete_counts_agree hAgree hServed

/-- One project with one frame. -/
def oneFrame : FrameStore where
  frames := ⟨[⟨1, 1, 1, some 0⟩], 1, ⟨by decide, by decide⟩, by decide⟩
  projects := ⟨[⟨1, 1⟩], by decide⟩

theorem oneFrame_agrees : CountsAgree oneFrame := by
  intro project hMem
  cases List.mem_singleton.mp hMem
  rfl

/-- A capture commits while a deletion goes on, which has found its frame but not yet read the
counter. -/
theorem frame_counts_agree_deleted :
    ∃ last, Run (Guarded (SessionStep serveFrame) ReadsCurrent) (.idle oneFrame)
        [.opens 1 (.permanentDelete 1 true), .advance 1, .opens 2 (.write 1 5), .advance 2,
          .advance 2, .advance 2, .advance 2, .commit 2, .advance 1, .advance 1, .commit 1] last ∧
      last.committed.projects.rows = [⟨1, 1⟩] ∧ CountsAgree last.committed := by
  refine Run.exists_and ?_ fun _ hRun _ => frame_counts_agree oneFrame_agrees hRun
  refine ⟨_, .cons ⟨rfl, nofun⟩ (.cons ⟨rfl, ?_⟩ (.cons ⟨rfl, nofun⟩ (.cons ⟨rfl, ?_⟩
    (.cons ⟨rfl, ?_⟩ (.cons ⟨rfl, ?_⟩ (.cons ⟨rfl, ?_⟩ (.cons ⟨rfl, nofun⟩ (.cons ⟨rfl, ?_⟩
      (.cons ⟨rfl, ?_⟩ (.cons ⟨rfl, nofun⟩ (.nil _))))))))))), rfl⟩
  · exact readsCurrent_of_not_write rfl nofun
  · exact readsCurrent_of_not_write rfl nofun
  · exact readsCurrent_of_not_write rfl nofun
  · exact readsCurrent_of_not_write rfl nofun
  · exact readsCurrent_advance rfl fun _ => ⟨⟨trivial, rfl⟩, rfl⟩
  · exact readsCurrent_of_not_write rfl nofun
  · exact readsCurrent_advance rfl fun _ => ⟨⟨trivial, rfl⟩, rfl⟩

/-- The deletion has read the counter when the capture commits; it then writes its own value
over the capture's: one frame row is left and the counter says none. -/
theorem capture_during_delete_loses_count :
    ∃ last, Run (SessionStep serveFrame) (.idle oneFrame)
        [.opens 1 (.permanentDelete 1 true), .advance 1, .advance 1,
          .opens 2 (.write 1 5), .advance 2, .advance 2, .advance 2, .advance 2, .commit 2,
          .advance 1, .commit 1] last ∧
      last.committed.frames.countIn 1 = 1 ∧ last.committed.projects.rows = [⟨1, 0⟩] := by
  refine ⟨_, Run.cons rfl (Run.cons rfl (Run.cons rfl (Run.cons rfl (Run.cons rfl (Run.cons rfl
    (Run.cons rfl (Run.cons rfl (Run.cons rfl (Run.cons rfl (Run.cons rfl
      (Run.nil _))))))))))), rfl, rfl⟩

end TimelapseManager.Storage
