import TimelapseManager.Lib.Runs
import TimelapseManager.Lib.SlotPack
import TimelapseManager.Storage.Resequence

/-!
# The chunked renumber

`resequence_project_chunked` splits the park and the assign statement of `resequence_project_from`
into chunks, each its own transaction, and releases the write lock between them.  Captures, which
take `max(sequence_index) + 1`, and permanent deletions commit in between.

* `renumberStep` is one transaction of the run, as a step of a phase machine: plan (and park the
  first chunk), park, assign, compact.
* `Action` adds the other writers; `interleave` is the labelled step relation.
* A capture during the park phase needs one assumption, `CaptureFindsParked`: it must see some row
  above the indexes the project had at the plan.
-/

namespace TimelapseManager.Storage

open SlotTable

/-! ## The run as a phase machine -/

/-- `RENUMBER_CHUNK_ROWS`. -/
def renumberChunkRows : Nat := 5000

/-- What the planning transaction hands to the later ones: the suffix in target
order with each row's index at the plan, the first target and the park offset. -/
structure Plan where
  rows : List Frame
  start : Nat
  offset : Nat
  deriving DecidableEq, Repr

namespace Plan

/-- `order = [row.id for row in rows]`. -/
def order (plan : Plan) : List Nat :=
  plan.rows.map Frame.id

/-- `parking = sorted(rows, key=sequence_index, reverse=True)`. -/
def parking (plan : Plan) : List Frame :=
  (byIndex plan.rows).reverse

/-- The first index after the renumbered range, `start + len(order)`. -/
def stop (plan : Plan) : Nat :=
  plan.start + plan.rows.length

end Plan

/-- The plan drawn from one snapshot of the table. -/
def planFor (table : FrameTable) (projectId : Nat) (bound : Int) : Plan :=
  let rows := chronological (suffixRows table projectId (some bound))
  { rows := rows
    start := suffixStart table projectId (some bound)
    offset := parkOffset table projectId rows.length }

/-- How far a run has come.  A list argument is what is still to do. -/
inductive Phase
  | planning
  | parking (plan : Plan) (todo : List Frame)
  | assigning (plan : Plan) (todo : List Nat) (next : Nat)
  | compacting (count next : Nat)
  /-- The call returned `count`. -/
  | finished (count : Nat)
  /-- A statement raised `IntegrityError`; the run stops part way. -/
  | aborted
  deriving DecidableEq, Repr

/-- The committed table, and where the run stands. -/
structure RenumberState where
  table : FrameTable
  phase : Phase

/-- One transaction: commit and go on, or roll back and raise. -/
def commit (table : FrameTable) (result : Option FrameTable) (phase : Phase) :
    RenumberState :=
  match result with
  | some next => ⟨next, phase⟩
  | none => ⟨table, .aborted⟩

/-- One park chunk, highest old index first. -/
def parkChunk (chunk : Nat) (table : FrameTable) (plan : Plan) (todo : List Frame) :
    RenumberState :=
  commit table (table.setSequenceIndexes (parkAssignments (todo.take chunk) plan.offset))
    (if todo.drop chunk = [] then .assigning plan plan.order plan.start
      else .parking plan (todo.drop chunk))

/-- One assign chunk, earliest target first. -/
def assignChunk (chunk : Nat) (table : FrameTable) (plan : Plan) (todo : List Nat)
    (next : Nat) : RenumberState :=
  commit table (table.setSequenceIndexes ((todo.take chunk).zipIdx next))
    (if todo.drop chunk = [] then .compacting plan.order.length (plan.start + plan.order.length)
      else .assigning plan (todo.drop chunk) (next + chunk))

/-- The rows of the project at or above `next`, lowest first. -/
def aboveRows (table : FrameTable) (projectId next : Nat) : List Frame :=
  byIndex ((table.inProject projectId).filter fun frame => next ≤ frame.sequenceIndex)

/-- The rows one pass of `_compact_tail` reads. -/
def compactTail (table : FrameTable) (projectId next : Nat) : List Frame :=
  (aboveRows table projectId next).take renumberChunkRows

/-- What that pass writes. -/
abbrev compactMoves (table : FrameTable) (projectId next : Nat) : List (Nat × Nat) :=
  pack frameLayout next (compactTail table projectId next)

/-- One pass of the loop of `_compact_tail`. -/
def compactChunk (projectId : Nat) (table : FrameTable) (count next : Nat) :
    RenumberState :=
  let tail := compactTail table projectId next
  commit table (table.setSequenceIndexes (compactMoves table projectId next))
    (if tail.length < renumberChunkRows then .finished count
      else .compacting count (next + tail.length))

/-- `chunk_rows = max(1, RENUMBER_CHUNK_ROWS if chunk_rows is None else chunk_rows)`. -/
def chunkSize (chunkRows : Option Nat) : Nat :=
  max 1 (chunkRows.getD renumberChunkRows)

/-- The planning transaction: it also parks the first chunk, or does the whole
renumber when the suffix fits in one chunk. -/
def planChunk (projectId : Nat) (importedIds : List Nat) (chunk : Nat)
    (table : FrameTable) : RenumberState :=
  match renumberBound table projectId importedIds with
  | none => ⟨table, .finished 0⟩
  | some bound =>
    if (suffixRows table projectId (some bound)).length ≤ chunk then
      match resequenceProjectFrom table projectId (some bound) with
      | some (next, count) => ⟨next, .finished count⟩
      | none => ⟨table, .aborted⟩
    else
      let plan := planFor table projectId bound
      parkChunk chunk table plan plan.parking

/-- `resequence_project_chunked`, one transaction at a time. -/
def renumberStep (projectId : Nat) (importedIds : List Nat) (chunk : Nat)
    (state : RenumberState) : RenumberState :=
  match state.phase with
  | .planning => planChunk projectId importedIds chunk state.table
  | .parking plan todo => parkChunk chunk state.table plan todo
  | .assigning plan todo next => assignChunk chunk state.table plan todo next
  | .compacting count next => compactChunk projectId state.table count next
  | .finished _ => state
  | .aborted => state

/-- What can commit next: a transaction of the run, a capture into some project,
or the permanent deletion of some frame. -/
inductive Action
  | chunk
  | write (projectId : Nat) (capturedAt : Int)
  | delete (frameId : Nat)
  deriving DecidableEq, Repr

/-- The effect of one committed transaction. -/
def act (projectId : Nat) (importedIds : List Nat) (chunk : Nat) (state : RenumberState) :
    Action → RenumberState
  | .chunk => renumberStep projectId importedIds chunk state
  | .write target capturedAt => { state with table := state.table.write target capturedAt }
  | .delete frameId => { state with table := state.table.permanentDelete frameId }

/-- The interleavings of one run with the other writers. -/
def interleave (projectId : Nat) (importedIds : List Nat) (chunk : Nat) :
    RenumberState → Action → RenumberState → Prop :=
  fun start action stop => stop = act projectId importedIds chunk start action

/-! ## The plan -/

/-- A renumber of a project from a bound, planned on one table. -/
structure Renumber where
  base : FrameTable
  projectId : Nat
  bound : Int

abbrev Renumber.plan (job : Renumber) : Plan :=
  planFor job.base job.projectId job.bound

/-- The rows to be renumbered. -/
abbrev Renumber.suffix (job : Renumber) : List Frame :=
  suffixRows job.base job.projectId (some job.bound)

variable {frame : Frame}

section Plan

variable {job : Renumber}

theorem planFor_order (job : Renumber) :
    job.plan.order = suffixOrder job.base job.projectId (some job.bound) := rfl

@[simp] theorem length_order (plan : Plan) : plan.order.length = plan.rows.length := by
  simp [Plan.order]

theorem parking_perm (plan : Plan) : plan.parking.Perm plan.rows :=
  (List.reverse_perm _).trans (byIndex_perm _)

theorem mem_planFor_rows :
    frame ∈ job.plan.rows ↔ frame ∈ job.suffix := by
  simp [planFor]

theorem mem_planFor_parking :
    frame ∈ job.plan.parking ↔ frame ∈ job.suffix := by
  rw [(parking_perm _).mem_iff, mem_planFor_rows]

theorem planFor_order_nodup (job : Renumber) : job.plan.order.Nodup :=
  suffixOrder_nodup job.base job.projectId (some job.bound)

theorem parking_ids_nodup (job : Renumber) : (job.plan.parking.map Frame.id).Nodup :=
  ((parking_perm _).map Frame.id).nodup_iff.mpr (planFor_order_nodup job)

theorem parking_sorted (job : Renumber) :
    job.plan.parking.Pairwise
      fun first second => second.sequenceIndex < first.sequenceIndex := by
  have hSorted : Ascending (byIndex job.plan.rows) := by
    refine byIndex_sorted job.base job.projectId ?_
      (List.Nodup.of_map _ (planFor_order_nodup job))
    intro frame hFrame
    obtain ⟨hRow, hProject, _⟩ := mem_suffixRows.mp (mem_planFor_rows.mp hFrame)
    exact ⟨hRow, hProject⟩
  exact List.pairwise_reverse.mpr hSorted

theorem stop_le_offset (job : Renumber) : job.plan.stop ≤ job.plan.offset := by
  have hLe := start_add_length_le_parkOffset job.base job.projectId (some job.bound)
  rw [← planFor_order, length_order] at hLe
  exact hLe

theorem index_lt_start (hFrame : frame ∈ job.base.rows) (hProject : frame.projectId = job.projectId)
    (hId : frame.id ∉ job.plan.order) : frame.sequenceIndex < job.plan.start := by
  refine lt_suffixStart hFrame hProject ?_
  cases hFrom : frame.isFrom (some job.bound) with
  | false => rfl
  | true =>
    exact absurd (mem_suffixOrder.mpr
      ⟨frame, mem_suffixRows.mpr ⟨hFrame, hProject, hFrom⟩, rfl⟩) hId

theorem mem_order_iff (hFrame : frame ∈ job.base.rows) :
    frame.id ∈ job.plan.order ↔ frame ∈ job.plan.rows := by
  rw [planFor_order, mem_planFor_rows]
  constructor
  · exact mem_suffixRows_of_id hFrame
  · exact fun hSuffix => mem_suffixOrder.mpr ⟨frame, hSuffix, rfl⟩

end Plan

/-! ## The rows a compaction pass reads -/

@[simp] theorem mem_aboveRows {table : FrameTable} {projectId next : Nat} :
    frame ∈ aboveRows table projectId next ↔
      (frame ∈ table.rows ∧ frame.projectId = projectId) ∧ next ≤ frame.sequenceIndex := by
  simp [aboveRows]

theorem aboveRows_sorted (table : FrameTable) (projectId next : Nat) :
    Ascending (aboveRows table projectId next) := by
  refine byIndex_sorted table projectId ?_ ((table.inProject_nodup projectId).filter _)
  intro frame hFrame
  exact FrameTable.mem_inProject.mp (List.mem_of_mem_filter hFrame)

theorem mem_compactTail {table : FrameTable} {projectId next : Nat}
    (hFrame : frame ∈ compactTail table projectId next) :
    (frame ∈ table.rows ∧ frame.projectId = projectId) ∧ next ≤ frame.sequenceIndex :=
  mem_aboveRows.mp (List.mem_of_mem_take hFrame)

theorem compactTail_sorted (table : FrameTable) (projectId next : Nat) :
    Ascending (compactTail table projectId next) :=
  (aboveRows_sorted table projectId next).sublist (List.take_sublist _ _)

theorem compactTail_clear (table : FrameTable) (projectId next : Nat) :
    Clear frameLayout table.rows projectId (compactMoves table projectId next) := by
  refine Clear.of_pack table.distinct (fun row hRow => (mem_compactTail hRow).1)
    (compactTail_sorted table projectId next) (fun row hRow => (mem_compactTail hRow).2) ?_
  intro row hRow hProject hLow hLeft packed hPacked
  have hAbove : row ∈ aboveRows table projectId next :=
    mem_aboveRows.mpr ⟨⟨hRow, hProject⟩, hLow⟩
  have hSorted := aboveRows_sorted table projectId next
  rw [← List.take_append_drop renumberChunkRows (aboveRows table projectId next)] at hAbove hSorted
  have hRest := (List.mem_append.mp hAbove).resolve_left hLeft
  exact (List.pairwise_append.mp hSorted).2.2 packed hPacked row hRest

end TimelapseManager.Storage
