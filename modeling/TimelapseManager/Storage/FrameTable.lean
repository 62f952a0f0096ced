import Mathlib
import TimelapseManager.Lib.KeyedRows
import TimelapseManager.Lib.SlotTable

/-!
# The frame table

`db/models/frame.py` and the two writers that add and remove rows.  A frame row is modelled with
the columns that ordering and renumbering read: its primary key, its project, its `sequence_index`
and its nullable `capture_timestamp`.

A `FrameTable` carries the two constraints of the schema as fields, so that a committed state which
breaks `uq_frame_project_seq` cannot be built, and the `AUTOINCREMENT` counter, so that the id of a
deleted frame is never handed out again.  `sequence_index` is a natural number: every writer numbers
from `(current_max or 0) + 1`.
-/

namespace TimelapseManager.Storage

open KeyedRows SlotTable

/-- One row of the `frame` table.  `captureTimestamp` is the naive-UTC column,
in microseconds; `none` is SQL `NULL`. -/
structure Frame where
  id : Nat
  projectId : Nat
  sequenceIndex : Nat
  captureTimestamp : Option Int
  deriving DecidableEq, Repr

/-- `UNIQUE(project_id, sequence_index)`, read as a slot layout: the group is
the project and the slot is the sequence index. -/
def frameLayout : Layout Frame Nat Nat where
  key := Frame.id
  group := Frame.projectId
  slot := Frame.sequenceIndex
  move := fun frame index => { frame with sequenceIndex := index }
  key_move := fun _ _ => rfl
  group_move := fun _ _ => rfl
  slot_move := fun _ _ => rfl
  move_move := fun _ _ _ => rfl
  move_slot := fun _ => rfl

@[simp] theorem frameLayout_key (frame : Frame) : frameLayout.key frame = frame.id := rfl

@[simp] theorem frameLayout_group (frame : Frame) : frameLayout.group frame = frame.projectId := rfl

@[simp] theorem frameLayout_slot (frame : Frame) :
    frameLayout.slot frame = frame.sequenceIndex := rfl

@[simp] theorem frameLayout_move (frame : Frame) (index : Nat) :
    frameLayout.move frame index = { frame with sequenceIndex := index } := rfl

@[simp] theorem relocate_id (updates : List (Nat × Nat)) (frame : Frame) :
    (relocate frameLayout updates frame).id = frame.id :=
  key_relocate frameLayout updates frame

@[simp] theorem relocate_projectId (updates : List (Nat × Nat)) (frame : Frame) :
    (relocate frameLayout updates frame).projectId = frame.projectId :=
  group_relocate frameLayout updates frame

/-- The whole table, every project included, with its constraints. -/
@[ext] structure FrameTable where
  rows : List Frame
  /-- `sqlite_sequence`: the largest id ever assigned. -/
  lastId : Nat
  distinct : Distinct frameLayout rows
  idsLe : ∀ frame ∈ rows, frame.id ≤ lastId

variable {first second frame : Frame} {projectId : Nat} {table : FrameTable} {frames : List Frame}

namespace FrameTable

theorem eq_of_id_eq (table : FrameTable) (hFirst : first ∈ table.rows)
    (hSecond : second ∈ table.rows) (hId : first.id = second.id) : first = second :=
  List.inj_on_of_nodup_map table.distinct.keys hFirst hSecond hId

theorem eq_of_index_eq (table : FrameTable) (hFirst : first ∈ table.rows)
    (hSecond : second ∈ table.rows) (hProject : first.projectId = second.projectId)
    (hIndex : first.sequenceIndex = second.sequenceIndex) : first = second :=
  List.inj_on_of_nodup_map table.distinct.slots hFirst hSecond (Prod.ext hProject hIndex)

/-- `SELECT ... WHERE project_id = ?`. -/
def inProject (table : FrameTable) (projectId : Nat) : List Frame :=
  table.rows.filter fun frame => frame.projectId = projectId

@[simp] theorem mem_inProject :
    frame ∈ table.inProject projectId ↔ frame ∈ table.rows ∧ frame.projectId = projectId := by
  simp [inProject]

theorem inProject_nodup (table : FrameTable) (projectId : Nat) :
    (table.inProject projectId).Nodup :=
  (List.Nodup.of_map _ table.distinct.keys).filter _

end FrameTable

/-- `func.max(Frame.sequence_index)` over some rows; `none` when there are
none. -/
def maxSequenceIndex (frames : List Frame) : Option Nat :=
  (frames.map Frame.sequenceIndex).max?

theorem le_maxSequenceIndex (hFrame : frame ∈ frames) :
    frame.sequenceIndex ≤ (maxSequenceIndex frames).getD 0 :=
  List.le_max?_getD_of_mem (List.mem_map_of_mem hFrame)

theorem exists_maxSequenceIndex (hFrames : frames ≠ []) :
    ∃ frame ∈ frames, frame.sequenceIndex = (maxSequenceIndex frames).getD 0 := by
  cases hMax : maxSequenceIndex frames with
  | none =>
    rw [maxSequenceIndex, List.max?_eq_none_iff, List.map_eq_nil_iff] at hMax
    exact absurd hMax hFrames
  | some top =>
    rw [maxSequenceIndex, List.max?_eq_some_iff] at hMax
    obtain ⟨frame, hFrame, hIndex⟩ := List.mem_map.mp hMax.1
    exact ⟨frame, hFrame, hIndex⟩

theorem maxSequenceIndex_le {bound : Nat} (hBound : ∀ frame ∈ frames, frame.sequenceIndex ≤ bound) :
    (maxSequenceIndex frames).getD 0 ≤ bound := by
  by_cases hFrames : frames = []
  · subst hFrames
    simp [maxSequenceIndex]
  · obtain ⟨frame, hFrame, hIndex⟩ := exists_maxSequenceIndex hFrames
    rw [← hIndex]
    exact hBound frame hFrame

namespace FrameTable

/-! ## Row updates -/

/-- `_set_sequence_indexes`: set `sequence_index` for each `(frame_id, index)`,
in list order.  `none` is an `IntegrityError`; the caller's transaction then
rolls back.  An id without a row matches nothing and is skipped. -/
def setSequenceIndexes (table : FrameTable) (assignments : List (Nat × Nat)) : Option FrameTable :=
  match hPlace : placeAll frameLayout table.rows assignments with
  | none => none
  | some rows =>
    some
      { rows := rows
        lastId := table.lastId
        distinct := placeAll_distinct frameLayout table.distinct hPlace
        idsLe := placeAll_forall_key frameLayout hPlace (· ≤ table.lastId) table.idsLe }

/-- The table that a statement has left, each of its rows written at most once. -/
structure Moved (table : FrameTable) (updates : List (Nat × Nat)) (next : FrameTable) : Prop where
  rows : next.rows = table.rows.map (relocate frameLayout updates)
  lastId : next.lastId = table.lastId

variable {assignments : List (Nat × Nat)}

theorem Moved.mem {next : FrameTable} (hMoved : table.Moved assignments next)
    (hFrame : frame ∈ next.rows) : ∃ row ∈ table.rows, relocate frameLayout assignments row = frame :=
  List.mem_map.mp (hMoved.rows ▸ hFrame)

theorem setSequenceIndexes_of_placeAll (table : FrameTable)
    (hPlace : placeAll frameLayout table.rows assignments =
      some (table.rows.map (relocate frameLayout assignments))) :
    ∃ next, table.setSequenceIndexes assignments = some next ∧ table.Moved assignments next := by
  unfold setSequenceIndexes
  split
  · rename_i hNone
    rw [hPlace] at hNone
    cases hNone
  · rename_i placed hSome
    rw [hPlace] at hSome
    exact ⟨_, rfl, (Option.some.inj hSome).symm, rfl⟩

theorem setSequenceIndexes_of_clear (table : FrameTable)
    (hClear : Clear frameLayout table.rows projectId assignments) :
    ∃ next, table.setSequenceIndexes assignments = some next ∧ table.Moved assignments next :=
  table.setSequenceIndexes_of_placeAll (placeAll_of_clear frameLayout hClear)

theorem setSequenceIndexes_of_perm {next : FrameTable} {updates listed : List (Nat × Nat)}
    (hPerm : updates.Perm listed) (hClear : Clear frameLayout table.rows projectId updates)
    (hMoved : table.Moved listed next) : table.setSequenceIndexes updates = some next := by
  obtain ⟨other, hOther, hRows, hLast⟩ := table.setSequenceIndexes_of_clear hClear
  rw [hOther, FrameTable.ext (hRows.trans ?_) (hLast.trans hMoved.lastId.symm)]
  rw [hMoved.rows, relocate_perm frameLayout hPerm hClear.keys]

/-! ## Captures and deletions -/

/-- `FrameWriter._next_sequence_index`: one past the project's maximum. -/
def nextSequenceIndex (table : FrameTable) (projectId : Nat) : Nat :=
  (maxSequenceIndex (table.inProject projectId)).getD 0 + 1

theorem lt_nextSequenceIndex (hFrame : frame ∈ table.rows)
    (hProject : frame.projectId = projectId) :
    frame.sequenceIndex < table.nextSequenceIndex projectId := by
  have hLe := le_maxSequenceIndex (mem_inProject.mpr ⟨hFrame, hProject⟩)
  unfold nextSequenceIndex
  omega

/-- The row `FrameWriter.write` inserts. -/
def capturedFrame (table : FrameTable) (projectId : Nat) (capturedAt : Int) : Frame where
  id := table.lastId + 1
  projectId := projectId
  sequenceIndex := table.nextSequenceIndex projectId
  captureTimestamp := some capturedAt

/-- `FrameWriter.write`: the index is read and the row inserted in one
transaction. -/
def write (table : FrameTable) (projectId : Nat) (capturedAt : Int) : FrameTable where
  rows := table.rows ++ [table.capturedFrame projectId capturedAt]
  lastId := table.lastId + 1
  distinct := by
    refine ⟨nodup_map_append table.distinct.keys fun hId => ?_,
      nodup_map_append table.distinct.slots fun hSlot => ?_⟩
    · obtain ⟨frame, hFrame, hEqual⟩ := List.mem_map.mp hId
      have hLe := table.idsLe frame hFrame
      simp only [frameLayout_key, capturedFrame] at hEqual
      omega
    · obtain ⟨frame, hFrame, hEqual⟩ := List.mem_map.mp hSlot
      simp only [frameLayout_group, frameLayout_slot, capturedFrame, Prod.mk.injEq] at hEqual
      have hLt := lt_nextSequenceIndex hFrame hEqual.1
      omega
  idsLe := by
    refine forall_mem_concat ?_ le_rfl
    exact fun frame hOld => Nat.le_succ_of_le (table.idsLe frame hOld)

/-- `permanent_delete`: the row is gone, its id is not reused. -/
def permanentDelete (table : FrameTable) (frameId : Nat) : FrameTable where
  rows := table.rows.filter fun frame => frame.id ≠ frameId
  lastId := table.lastId
  distinct :=
    ⟨table.distinct.keys.sublist (List.filter_sublist.map _),
      table.distinct.slots.sublist (List.filter_sublist.map _)⟩
  idsLe := fun frame hFrame => table.idsLe frame (List.mem_of_mem_filter hFrame)

end FrameTable

/-! ## Index order -/

/-- `ORDER BY sequence_index`. -/
def byIndex (frames : List Frame) : List Frame :=
  frames.insertionSort fun first second => first.sequenceIndex ≤ second.sequenceIndex

theorem byIndex_perm (frames : List Frame) : (byIndex frames).Perm frames :=
  List.perm_insertionSort _ _

@[simp] theorem mem_byIndex : frame ∈ byIndex frames ↔ frame ∈ frames :=
  (byIndex_perm frames).mem_iff

/-- The indexes increase along the list. -/
abbrev Ascending (frames : List Frame) : Prop :=
  frames.Pairwise fun first second => first.sequenceIndex < second.sequenceIndex

theorem ascending_iff : Ascending frames ↔ (frames.map Frame.sequenceIndex).Pairwise (· < ·) :=
  List.pairwise_map.symm

theorem byIndex_sorted (table : FrameTable) (projectId : Nat)
    (hFrames : ∀ frame ∈ frames, frame ∈ table.rows ∧ frame.projectId = projectId)
    (hNodup : frames.Nodup) : Ascending (byIndex frames) := by
  have hSorted : (byIndex frames).Pairwise
      fun first second => first.sequenceIndex ≤ second.sequenceIndex :=
    List.pairwise_insertionSort _ _
  have hApart : (byIndex frames).Nodup := (byIndex_perm frames).nodup_iff.mpr hNodup
  refine (hSorted.and hApart).imp_of_mem ?_
  intro first second hFirst hSecond hBoth
  obtain ⟨hFirstRow, hFirstProject⟩ := hFrames first (mem_byIndex.mp hFirst)
  obtain ⟨hSecondRow, hSecondProject⟩ := hFrames second (mem_byIndex.mp hSecond)
  refine lt_of_le_of_ne hBoth.1 fun hIndex => hBoth.2 ?_
  exact table.eq_of_index_eq hFirstRow hSecondRow (hFirstProject.trans hSecondProject.symm) hIndex

/-! ## Chronological order -/

/-- The timestamp with `NULL` after every timed row. -/
def Frame.timeKey (frame : Frame) : WithTop Int :=
  match frame.captureTimestamp with
  | none => ⊤
  | some timestamp => (timestamp : WithTop Int)

/-- The order `ORDER BY capture_timestamp IS NULL, capture_timestamp, id`: a
missing timestamp is the top element, ties are broken by the id. -/
def Frame.sortKey (frame : Frame) : WithTop Int ×ₗ Nat :=
  toLex (frame.timeKey, frame.id)

/-- The rows in `(capture_timestamp with nulls last, id)` order. -/
def chronological (frames : List Frame) : List Frame :=
  frames.insertionSort fun first second => first.sortKey ≤ second.sortKey

theorem chronological_perm (frames : List Frame) : (chronological frames).Perm frames :=
  List.perm_insertionSort _ _

@[simp] theorem mem_chronological : frame ∈ chronological frames ↔ frame ∈ frames :=
  (chronological_perm frames).mem_iff

@[simp] theorem length_chronological (frames : List Frame) :
    (chronological frames).length = frames.length :=
  (chronological_perm frames).length_eq

theorem chronological_sorted (frames : List Frame) :
    (chronological frames).Pairwise fun first second => first.sortKey ≤ second.sortKey := by
  exact List.pairwise_insertionSort _ _

theorem Frame.sortKey_lt_of_timed (hFirst : first.captureTimestamp ≠ none)
    (hSecond : second.captureTimestamp = none) : first.sortKey < second.sortKey := by
  obtain ⟨timestamp, hTimestamp⟩ := Option.ne_none_iff_exists'.mp hFirst
  left
  simp [Frame.timeKey, hTimestamp, hSecond]

theorem Frame.sortKey_lt_iff_of_timed {earlier later : Int}
    (hFirst : first.captureTimestamp = some earlier)
    (hSecond : second.captureTimestamp = some later) :
    first.sortKey < second.sortKey ↔
      earlier < later ∨ (earlier = later ∧ first.id < second.id) := by
  rw [Frame.sortKey, Frame.sortKey, Prod.Lex.toLex_lt_toLex]
  simp [Frame.timeKey, hFirst, hSecond]

theorem Frame.sortKey_lt_iff_of_untimed (hFirst : first.captureTimestamp = none)
    (hSecond : second.captureTimestamp = none) :
    first.sortKey < second.sortKey ↔ first.id < second.id := by
  rw [Frame.sortKey, Frame.sortKey, Prod.Lex.toLex_lt_toLex]
  simp [Frame.timeKey, hFirst, hSecond]

end TimelapseManager.Storage
