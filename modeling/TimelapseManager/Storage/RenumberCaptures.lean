import TimelapseManager.Storage.RenumberRuns

/-!
# The chunked renumber refines the one-transaction renumber

Without deletions the invariant of `RenumberInvariant` becomes exact: no row is ever missing, the
frames of the plan end where `resequence_project_from` would have put them, and the captures that
landed in between end directly behind them.  `InsertionOrder` says where the captures stand, phase
by phase; compaction is the phase in which they are moved down.

`chunked_leaves_gaps` shows the case the refinement leaves out: without a bound the chunked renumber
writes nothing, where the one-transaction renumber would close every gap.
-/

namespace TimelapseManager.Storage

open SlotTable Runs

/-! ## No frame is lost -/

/-- Every frame of `base` and every id handed out since is in the table, in
insertion order. -/
structure Kept (base table : FrameTable) : Prop where
  lastIdLe : base.lastId ≤ table.lastId
  ids : table.rows.map Frame.id = base.rows.map Frame.id ++
    List.range' (base.lastId + 1) (table.lastId - base.lastId)

namespace Kept

variable {base table next : FrameTable}

theorem refl (base : FrameTable) : Kept base base :=
  ⟨Nat.le_refl _, by simp⟩

section

variable (hKept : Kept base table)
include hKept

theorem update {updates : List (Nat × Nat)} (hMoved : table.Moved updates next) :
    Kept base next := by
  refine ⟨hMoved.lastId ▸ hKept.lastIdLe, ?_⟩
  rw [hMoved.lastId, ← hKept.ids, hMoved.rows, List.map_map]
  exact List.map_congr_left fun row _ => relocate_id updates row

theorem write (projectId : Nat) (capturedAt : Int) :
    Kept base (table.write projectId capturedAt) := by
  have hLe := hKept.lastIdLe
  refine ⟨Nat.le_succ_of_le hLe, ?_⟩
  have hSize : (table.write projectId capturedAt).lastId - base.lastId =
      (table.lastId - base.lastId) + 1 := by
    show table.lastId + 1 - base.lastId = _
    omega
  have hId : base.lastId + 1 + (table.lastId - base.lastId) = table.lastId + 1 := by omega
  rw [hSize, List.range'_1_concat, hId, ← List.append_assoc, ← hKept.ids]
  exact List.map_append

theorem live {frame : Frame} (hFrame : frame ∈ base.rows) :
    ∃ row ∈ table.rows, row.id = frame.id := by
  have hMem : frame.id ∈ table.rows.map Frame.id := by
    rw [hKept.ids]
    exact List.mem_append_left _ (List.mem_map_of_mem hFrame)
  exact List.mem_map.mp hMem

theorem relocated {history : List (Nat × Nat)}
    (hPlaced : Placed base table history) {frame : Frame} (hFrame : frame ∈ base.rows) :
    relocate frameLayout history frame ∈ table.rows := by
  obtain ⟨row, hRow, hId⟩ := hKept.live hFrame
  rwa [hPlaced.eq_relocate hRow hFrame hId] at hRow

theorem split : (table.rows.take base.rows.length).map Frame.id = base.rows.map Frame.id ∧
    (table.rows.drop base.rows.length).map Frame.id =
      List.range' (base.lastId + 1) (table.lastId - base.lastId) := by
  have hIds := hKept.ids
  have hLength := congrArg List.length hIds
  rw [← List.take_append_drop base.rows.length table.rows, List.map_append] at hIds
  refine List.append_inj hIds ?_
  simp only [List.length_map, List.length_append, List.length_take] at hLength ⊢
  omega

theorem rows_eq {history : List (Nat × Nat)} (hPlaced : Placed base table history) :
    table.rows = base.rows.map (relocate frameLayout history) ++
      table.rows.drop base.rows.length := by
  have hFront := hKept.split.1
  conv_lhs => rw [← List.take_append_drop base.rows.length table.rows]
  congr 1
  have hLength := congrArg List.length hFront
  refine List.ext_getElem (by simpa using hLength) fun position hTaken hMapped => ?_
  rw [List.getElem_map]
  have hBase : position < base.rows.length := by simpa using hMapped
  -- The row and the base frame at one position carry one id.
  have hId : (table.rows.take base.rows.length)[position].id = base.rows[position].id := by
    simpa using List.getElem_of_eq hFront (i := position) (by simpa using hTaken)
  exact hPlaced.eq_relocate (List.mem_of_mem_take (List.getElem_mem hTaken))
    (List.getElem_mem hBase) hId

end

end Kept

variable {base next table : FrameTable} {phase : Phase}

theorem MovesPlanned.kept (hMoves : MovesPlanned base table next) (hKept : Kept base table) :
    Kept base next := by
  obtain ⟨_, _, hMoved⟩ := hMoves
  exact hKept.update hMoved

/-! ## The next index -/

section NextIndex

variable {job : Renumber} {table : FrameTable}

theorem stop_le_nextSequenceIndex (hKept : Kept job.base table) (hInv : Renumbered job table) :
    job.plan.stop ≤ table.nextSequenceIndex job.projectId := by
  -- The last index of the range is held by the last planned frame; an empty
  -- range ends right after the last frame before the bound.
  by_cases hEmpty : job.plan.rows = []
  · have hStop : job.plan.stop = suffixStart job.base job.projectId (some job.bound) := by
      show job.plan.start + _ = _
      rw [hEmpty]
      rfl
    rw [hStop, suffixStart_some]
    refine Nat.succ_le_succ (maxSequenceIndex_le fun frame hFrame => ?_)
    obtain ⟨hBase, hProject⟩ := FrameTable.mem_inProject.mp (List.mem_of_mem_filter hFrame)
    have hOrder : frame.id ∉ job.plan.order := by
      simp [Plan.order, hEmpty]
    have hRow := hKept.relocated hInv hBase
    rw [relocate_zipIdx_of_not_mem hOrder] at hRow
    exact le_maxSequenceIndex (FrameTable.mem_inProject.mpr ⟨hRow, hProject⟩)
  · have hLength := List.length_pos_of_ne_nil hEmpty
    obtain ⟨frame, hFrame⟩ : ∃ frame, job.plan.rows[job.plan.rows.length - 1]? = some frame :=
      ⟨_, List.getElem?_eq_getElem (by omega)⟩
    obtain ⟨hBase, hProject, _⟩ :=
      mem_suffixRows.mp (mem_planFor_rows.mp (List.mem_of_getElem? hFrame))
    have hPosition : job.plan.order[job.plan.rows.length - 1]? = some frame.id := by
      rw [Plan.order, List.getElem?_map, hFrame, Option.map_some]
    have hRow := hKept.relocated hInv hBase
    rw [relocate_zipIdx (planFor_order_nodup job) hPosition] at hRow
    have hLt : job.plan.start + _ < _ :=
      FrameTable.lt_nextSequenceIndex hRow hProject
    show job.plan.start + _ ≤ _
    omega

theorem lt_nextSequenceIndex_of_mem {index : Nat}
    (hIndex : index ∈ (captures job table).map Frame.sequenceIndex) :
    index < table.nextSequenceIndex job.projectId := by
  obtain ⟨row, hRow, rfl⟩ := List.mem_map.mp hIndex
  obtain ⟨hRow, _, hProject⟩ := mem_captures.mp hRow
  exact FrameTable.lt_nextSequenceIndex hRow hProject

theorem le_nextSequenceIndex {packed : Nat} (hKept : Kept job.base table)
    (hInv : Renumbered job table)
    (hPacked : List.range' job.plan.stop packed ⊆ (captures job table).map Frame.sequenceIndex) :
    job.plan.stop + packed ≤ table.nextSequenceIndex job.projectId := by
  -- The last packed capture, or the range itself, stands just below.
  cases packed with
  | zero => exact stop_le_nextSequenceIndex hKept hInv
  | succ before =>
    rw [← Nat.add_assoc, Nat.add_one_le_iff]
    refine lt_nextSequenceIndex_of_mem (hPacked (List.mem_range'_1.mpr ?_))
    omega

theorem nextSequenceIndex_eq (hKept : Kept job.base table) (hInv : Renumbered job table)
    (hCaptures : (captures job table).map Frame.sequenceIndex =
      List.range' job.plan.stop (captures job table).length) :
    table.nextSequenceIndex job.projectId = job.plan.stop + (captures job table).length := by
  have hPositive : 0 < job.plan.stop := by
    show 0 < suffixStart job.base job.projectId (some job.bound) + _
    rw [suffixStart_some]
    omega
  apply Nat.le_antisymm
  · have hBelow : (maxSequenceIndex (table.inProject job.projectId)).getD 0 ≤
        job.plan.stop + (captures job table).length - 1 := by
      refine maxSequenceIndex_le fun row hRow => ?_
      obtain ⟨hRow, hProject⟩ := FrameTable.mem_inProject.mp hRow
      by_cases hOld : row.id ≤ job.base.lastId
      · have hLt := hInv.index_lt_stop hRow hOld hProject
        omega
      · have hMem : row.sequenceIndex ∈ List.range' job.plan.stop
            (captures job table).length := by
          rw [← hCaptures]
          exact List.mem_map_of_mem (mem_captures.mpr ⟨hRow, Nat.lt_of_not_le hOld, hProject⟩)
        have hRange := List.mem_range'_1.mp hMem
        omega
    unfold FrameTable.nextSequenceIndex
    omega
  · refine le_nextSequenceIndex hKept hInv ?_
    rw [hCaptures]
    exact List.Subset.refl _

end NextIndex

/-! ## Captures in insertion order -/

section Order

variable {job : Renumber} {table : FrameTable}

/-- The first `packed` captures follow the range without a gap, the others stand
higher. -/
structure PackedUpTo (job : Renumber) (table : FrameTable) (packed : Nat) : Prop where
  front : ((captures job table).take packed).map Frame.sequenceIndex =
    List.range' job.plan.stop packed
  rest : ∀ row ∈ (captures job table).drop packed, job.plan.stop + packed ≤ row.sequenceIndex

variable {packed : Nat}

theorem PackedUpTo.le_length (hPacked : PackedUpTo job table packed) :
    packed ≤ (captures job table).length := by
  have hLength := congrArg List.length hPacked.front
  rw [List.length_map, List.length_take, List.length_range'] at hLength
  omega

/-- The captures of the project increase in insertion order; compaction packs
them from the front, and a returned run has packed them all. -/
def InsertionOrder (job : Renumber) (state : RenumberState) : Prop :=
  Ascending (captures job state.table) ∧
    match state.phase with
    | .compacting _ next => ∃ packed, next = job.plan.stop + packed ∧
        PackedUpTo job state.table packed
    | .finished _ => (captures job state.table).map Frame.sequenceIndex =
        List.range' job.plan.stop (captures job state.table).length
    | _ => True

theorem map_relocate_pack_indexes (table : FrameTable) (projectId next : Nat) :
    ((compactTail table projectId next).map (relocate frameLayout
      (compactMoves table projectId next))).map Frame.sequenceIndex =
      List.range' next (compactTail table projectId next).length := by
  refine List.ext_getElem (by simp) fun position hLeft hRight => ?_
  have hLt : position < (compactTail table projectId next).length := by simpa using hRight
  rw [List.getElem_map, List.getElem_map, List.getElem_range',
    relocate_pack table.distinct (fun row hRow => (mem_compactTail hRow).1)
      (compactTail_sorted table projectId next) (List.getElem?_eq_getElem hLt)]
  simp

section

variable (hInv : Renumbered job table) (hSorted : Ascending (captures job table))
  (hPacked : PackedUpTo job table packed)
include hInv hSorted hPacked

theorem aboveRows_eq :
    aboveRows table job.projectId (job.plan.stop + packed) = (captures job table).drop packed := by
  have hFilter : (table.inProject job.projectId).filter
      (fun row => job.plan.stop + packed ≤ row.sequenceIndex) =
        (captures job table).filter fun row => job.plan.stop + packed ≤ row.sequenceIndex := by
    rw [FrameTable.inProject, captures, List.filter_filter, List.filter_filter]
    refine List.filter_congr fun row hRow => ?_
    by_cases hProject : row.projectId = job.projectId
    · by_cases hOld : row.id ≤ job.base.lastId
      · have hLt := hInv.index_lt_stop hRow hOld hProject
        have hLow : ¬ job.plan.stop + packed ≤ row.sequenceIndex := by
          omega
        simp [hLow]
      · simp [hProject, Nat.lt_of_not_le hOld]
    · simp [hProject]
  have hSplit : (captures job table).filter
      (fun row => job.plan.stop + packed ≤ row.sequenceIndex) =
        (captures job table).drop packed := by
    conv_lhs => rw [← List.take_append_drop packed (captures job table)]
    rw [List.filter_append, List.filter_eq_nil_iff.mpr ?_, List.nil_append,
      List.filter_eq_self.mpr ?_]
    · intro row hRow
      simpa using hPacked.rest row hRow
    · intro row hRow
      have hMem := List.mem_map_of_mem (f := Frame.sequenceIndex) hRow
      rw [hPacked.front] at hMem
      have hRange := List.mem_range'_1.mp hMem
      simp only [decide_eq_true_eq]
      omega
  rw [aboveRows, hFilter, hSplit, byIndex]
  refine List.Pairwise.insertionSort_eq ?_
  exact (hSorted.sublist (List.drop_sublist _ _)).imp Nat.le_of_lt

theorem compactTail_eq :
    compactTail table job.projectId (job.plan.stop + packed) =
      ((captures job table).drop packed).take renumberChunkRows := by
  rw [compactTail, aboveRows_eq hInv hSorted hPacked]

theorem compact_indexes {packedTable : FrameTable} {next : Nat}
    (hNext : next = job.plan.stop + packed)
    (hMoved : table.Moved (compactMoves table job.projectId next) packedTable) :
    (captures job packedTable).map Frame.sequenceIndex =
      List.range' job.plan.stop (packed + (compactTail table job.projectId next).length) ++
        (((captures job table).drop packed).drop renumberChunkRows).map Frame.sequenceIndex := by
  have hTail := compactTail_eq hInv hSorted hPacked
  rw [← hNext] at hTail
  -- Rows outside the tail are left alone.
  have hStay : ∀ rows : List Frame, (∀ row ∈ rows, row ∈ captures job table) →
      (∀ row ∈ rows, row ∉ compactTail table job.projectId next) →
      rows.map (relocate frameLayout (compactMoves table job.projectId next)) = rows := by
    intro rows hCaptures hOutside
    conv_rhs => rw [← List.map_id rows]
    refine List.map_congr_left fun row hRow => ?_
    exact relocate_pack_of_not_mem table.distinct (fun row hRow => (mem_compactTail hRow).1)
      (mem_captures.mp (hCaptures row hRow)).1 (hOutside row hRow)
  have hFront := hStay ((captures job table).take packed)
    (fun _ hRow => List.mem_of_mem_take hRow) (by
      intro row hRow hInTail
      have hIndex : row.sequenceIndex ∈
          ((captures job table).take packed).map Frame.sequenceIndex :=
        List.mem_map_of_mem hRow
      rw [hPacked.front] at hIndex
      have hRange := List.mem_range'_1.mp hIndex
      have hLow := (mem_compactTail hInTail).2
      omega)
  have hRest := hStay (((captures job table).drop packed).drop renumberChunkRows)
    (fun _ hRow => List.mem_of_mem_drop (List.mem_of_mem_drop hRow)) (by
      intro row hRow hInTail
      rw [hTail] at hInTail
      have hDrop := hSorted.sublist (List.drop_sublist packed _)
      rw [← List.take_append_drop renumberChunkRows ((captures job table).drop packed)] at hDrop
      exact Nat.lt_irrefl _ ((List.pairwise_append.mp hDrop).2.2 row hInTail row hRow))
  have hSplit : captures job table =
      (captures job table).take packed ++ (compactTail table job.projectId next ++
        ((captures job table).drop packed).drop renumberChunkRows) := by
    rw [hTail, List.take_append_drop, List.take_append_drop]
  rw [captures_map hMoved]
  conv_lhs => rw [hSplit]
  simp only [List.map_append]
  rw [hFront, hRest, map_relocate_pack_indexes, hPacked.front, ← List.append_assoc]
  congr 1
  rw [← List.range'_append_1, ← hNext]

end

theorem compact_inOrder {packedTable : FrameTable} {count next : Nat}
    (hInv : Renumbered job table) (hOrder : InsertionOrder job ⟨table, .compacting count next⟩)
    (hMoved : table.Moved (compactMoves table job.projectId next) packedTable) :
    ((compactTail table job.projectId next).length < renumberChunkRows →
      InsertionOrder job ⟨packedTable, .finished count⟩) ∧
    ((compactTail table job.projectId next).length = renumberChunkRows →
      InsertionOrder job ⟨packedTable, .compacting count (next + renumberChunkRows)⟩) := by
  obtain ⟨hSorted, packed, hNext, hPacked⟩ := hOrder
  have hIndexes := compact_indexes hInv hSorted hPacked hNext hMoved
  have hTail := compactTail_eq hInv hSorted hPacked
  rw [← hNext] at hTail
  have hDrop := hSorted.sublist (List.drop_sublist packed _)
  -- A pass that is not full was the last one; after a full pass the captures behind it stand above
  -- its targets.
  constructor
  · intro hShort
    have hNone : ((captures job table).drop packed).drop renumberChunkRows = [] := by
      rw [hTail, List.length_take] at hShort
      exact List.drop_eq_nil_of_le (by omega)
    rw [hNone, List.map_nil, List.append_nil] at hIndexes
    have hLength := congrArg List.length hIndexes
    rw [List.length_map, List.length_range'] at hLength
    refine ⟨?_, ?_⟩
    · rw [ascending_iff, hIndexes]
      exact List.pairwise_lt_range'
    · show (captures job packedTable).map Frame.sequenceIndex = _
      rw [hIndexes, hLength]
  · intro hFull
    rw [hFull] at hIndexes
    have hHigh : ∀ row ∈ ((captures job table).drop packed).drop renumberChunkRows,
        next + renumberChunkRows ≤ row.sequenceIndex := by
      intro row hRow
      obtain ⟨position, hPosition⟩ := List.mem_iff_getElem?.mp hRow
      rw [List.getElem?_drop] at hPosition
      have hLe : next + (renumberChunkRows + position) ≤ row.sequenceIndex :=
        add_position_le_slot frameLayout hDrop
          (fun row hRow => hNext ▸ hPacked.rest row hRow) hPosition
      omega
    refine ⟨?_, packed + renumberChunkRows, by omega, ?_, ?_⟩
    · rw [ascending_iff, hIndexes, List.pairwise_append]
      refine ⟨List.pairwise_lt_range', ?_, ?_⟩
      · exact List.pairwise_map.mpr (hDrop.sublist (List.drop_sublist _ _))
      · intro low hLow high hMem
        have hRange := List.mem_range'_1.mp hLow
        obtain ⟨row, hRow, rfl⟩ := List.mem_map.mp hMem
        have hLe := hHigh row hRow
        omega
    · rw [List.map_take, hIndexes, List.take_append_of_le_length (by simp),
        List.take_of_length_le (by simp)]
    · intro row hRow
      have hMem : row.sequenceIndex ∈
          ((captures job packedTable).drop (packed + renumberChunkRows)).map Frame.sequenceIndex :=
        List.mem_map_of_mem hRow
      rw [List.map_drop, hIndexes, List.drop_append_of_le_length (by simp),
        List.drop_eq_nil_of_le (by simp), List.nil_append] at hMem
      obtain ⟨other, hOther, hSame⟩ := List.mem_map.mp hMem
      have hLe := hHigh other hOther
      omega

theorem captures_write (hLast : job.base.lastId ≤ table.lastId) (target : Nat) (capturedAt : Int) :
    captures job (table.write target capturedAt) =
      captures job table ++
        if target = job.projectId then [table.capturedFrame target capturedAt] else [] := by
  have hNew : job.base.lastId < table.lastId + 1 := Nat.lt_succ_of_le hLast
  rw [captures, FrameTable.write, List.filter_append]
  congr 1
  by_cases hTarget : target = job.projectId
  · simp [FrameTable.capturedFrame, hTarget, hNew]
  · simp [FrameTable.capturedFrame, hTarget]

theorem write_inOrder (hKept : Kept job.base table) (hSound : Sound job ⟨table, phase⟩)
    (hOrder : InsertionOrder job ⟨table, phase⟩) (target : Nat)
    (capturedAt : Int) :
    InsertionOrder job ⟨table.write target capturedAt, phase⟩ := by
  have hCaptures : captures job (table.write target capturedAt) = _ :=
    captures_write hKept.lastIdLe target capturedAt
  by_cases hTarget : target = job.projectId
  case neg =>
    rw [if_neg hTarget, List.append_nil] at hCaptures
    obtain ⟨hSorted, hPhase⟩ := hOrder
    refine ⟨hCaptures.symm ▸ hSorted, ?_⟩
    cases phase with
    | compacting =>
      obtain ⟨packed, hNext, hPacked⟩ := hPhase
      exact ⟨packed, hNext, ⟨hCaptures.symm ▸ hPacked.front, hCaptures.symm ▸ hPacked.rest⟩⟩
    | finished count =>
      rw [hCaptures]
      exact hPhase
    | planning | parking | assigning | aborted => trivial
  case pos =>
    subst hTarget
    rw [if_pos rfl] at hCaptures
    obtain ⟨hSorted, hPhase⟩ := hOrder
    refine ⟨?_, ?_⟩
    · simp only [hCaptures]
      refine List.pairwise_append.mpr ⟨hSorted, List.pairwise_singleton _ _, ?_⟩
      intro row hRow captured hCaptured
      rw [List.mem_singleton.mp hCaptured]
      exact lt_nextSequenceIndex_of_mem (List.mem_map_of_mem hRow)
    cases phase with
    | compacting =>
      obtain ⟨packed, hNext, hPacked⟩ := hPhase
      have hInv := hSound.2.2
      have hLength : packed ≤ (captures job table).length := hPacked.le_length
      have hHigh : job.plan.stop + packed ≤ table.nextSequenceIndex job.projectId := by
        refine le_nextSequenceIndex hKept hInv ?_
        rw [← hPacked.front]
        exact ((List.take_sublist _ _).map _).subset
      refine ⟨packed, hNext, ?_, ?_⟩
      · rw [hCaptures, List.take_append_of_le_length hLength]
        exact hPacked.front
      · rw [hCaptures, List.drop_append_of_le_length hLength]
        exact List.forall_mem_append.mpr ⟨hPacked.rest, List.forall_mem_singleton.mpr hHigh⟩
    | finished count =>
      have hNext := nextSequenceIndex_eq hKept hSound.2 hPhase
      rw [hCaptures, List.map_append, hPhase, List.length_append, List.map_singleton,
        List.length_singleton, List.range'_1_concat]
      congr 2
    | planning | parking | assigning | aborted => trivial

end Order

/-! ## Runs without deletions -/

/-- The invariant of a run among captures. -/
structure Exact (job : Renumber) (state : RenumberState) : Prop where
  sound : Sound job state
  kept : Kept job.base state.table
  inOrder : InsertionOrder job state

section Exact

variable {job : Renumber} {table : FrameTable} {chunk : Nat} {importedIds : List Nat}

theorem MovesPlanned.sorted (hMoves : MovesPlanned job.base table next)
    (hOrder : InsertionOrder job ⟨table, phase⟩) : Ascending (captures job next) :=
  (hMoves.captures_eq).symm ▸ hOrder.1

variable {state : RenumberState}

section

variable (hExact : Exact job state)
include hExact

theorem Exact.chunk_step :
    Exact job (renumberStep job.projectId importedIds chunk state) ∧
      (renumberStep job.projectId importedIds chunk state).table.lastId = state.table.lastId := by
  have hSound : Sound job (renumberStep job.projectId importedIds chunk state) :=
    renumberStep_sound hExact.sound
  obtain ⟨table, phase⟩ := state
  cases phase with
  | planning | aborted => exact hExact.sound.elim
  | parking =>
    obtain ⟨rfl, hTodo, done, _, hInv⟩ := hExact.sound
    simp only [renumberStep] at hSound ⊢
    rcases parkChunk_cases hTodo hInv with ⟨next, hNext, hMoves, _⟩ | ⟨_, next, hNext, hMoves, _⟩
    all_goals
      rw [hNext] at hSound ⊢
      exact ⟨⟨hSound, hMoves.kept hExact.kept, hMoves.sorted hExact.inOrder, trivial⟩,
        hMoves.lastId⟩
  | assigning plan todo next =>
    obtain ⟨rfl, hTodo, done, rfl, hInv⟩ := hExact.sound
    simp only [renumberStep] at hSound ⊢
    rcases assignChunk_cases hInv with ⟨after, hAfter, hMoves, _⟩ | ⟨_, after, hAfter, hMoves, _⟩
    · rw [hAfter] at hSound ⊢
      refine ⟨⟨hSound, hMoves.kept hExact.kept, hMoves.sorted hExact.inOrder, 0, rfl, ?_, ?_⟩,
        hMoves.lastId⟩
      · simp
      · -- Some frame still waited for its index, so every capture stands above.
        obtain ⟨frameId, hWaiting⟩ := List.exists_mem_of_ne_nil todo hTodo
        obtain ⟨frame, hFrame, rfl⟩ := mem_suffixOrder.mp (hInv.mem_order hWaiting)
        obtain ⟨row, hRow, hId⟩ := hExact.kept.live (mem_suffixRows.mp hFrame).1
        rw [hMoves.captures_eq, List.drop_zero]
        exact hInv.above ⟨row, hRow, hId ▸ hWaiting⟩
    · rw [hAfter] at hSound ⊢
      exact ⟨⟨hSound, hMoves.kept hExact.kept, hMoves.sorted hExact.inOrder, trivial⟩,
        hMoves.lastId⟩
  | compacting count next =>
    obtain ⟨_, hNext, hInv⟩ := hExact.sound
    simp only [renumberStep] at hSound ⊢
    -- The pass is the last one if it was not full.
    obtain ⟨packed, _, hMoved, ⟨hShort, hResult⟩ | ⟨hFull, hResult⟩⟩ :=
      compactChunk_cases count hInv hNext
    · rw [hResult] at hSound ⊢
      exact ⟨⟨hSound, hExact.kept.update hMoved,
        (compact_inOrder hInv hExact.inOrder hMoved).1 hShort⟩, hMoved.lastId⟩
    · rw [hResult] at hSound ⊢
      exact ⟨⟨hSound, hExact.kept.update hMoved,
        (compact_inOrder hInv hExact.inOrder hMoved).2 hFull⟩, hMoved.lastId⟩
  | finished count => exact ⟨hExact, rfl⟩

theorem Exact.captureFindsParked (target : Nat) (capturedAt : Int) :
    CaptureFindsParked job.base job.projectId state (.write target capturedAt) := by
  obtain ⟨table, phase⟩ := state
  cases phase with
  | parking =>
    intro _
    obtain ⟨rfl, _, done, hDone, hInv⟩ := hExact.sound
    obtain ⟨frame, hFrame⟩ := List.exists_mem_of_ne_nil done hDone
    obtain ⟨hBase, hProject, _⟩ :=
      mem_suffixRows.mp (mem_suffixRows_of_split hInv.split (Or.inl hFrame))
    have hRow := hExact.kept.relocated hInv.placed hBase
    rw [parked_index hInv.split hFrame] at hRow
    refine ⟨_, hRow, hProject, ?_⟩
    show _ < frame.sequenceIndex + parkOffset job.base job.projectId _
    unfold parkOffset
    omega
  | planning | assigning | compacting | finished | aborted => trivial

theorem Exact.write_step (target : Nat) (capturedAt : Int) :
    Exact job { state with table := state.table.write target capturedAt } :=
  ⟨write_sound hExact.sound (hExact.captureFindsParked target capturedAt),
    hExact.kept.write target capturedAt,
    write_inOrder hExact.kept hExact.sound hExact.inOrder target capturedAt⟩

end

theorem planChunk_exact (hChunk : 0 < chunk)
    (hBound : renumberBound job.base job.projectId importedIds = some job.bound) :
    Exact job (planChunk job.projectId importedIds chunk job.base) ∧
      (planChunk job.projectId importedIds chunk job.base).table.lastId = job.base.lastId := by
  have hSound := planChunk_sound hChunk hBound
  have hNoCaptures : captures job job.base = [] := by
    rw [captures, List.filter_eq_nil_iff]
    intro row hRow
    have hLe := job.base.idsLe row hRow
    simp [Nat.not_lt_of_le hLe]
  have hStart : InsertionOrder job ⟨job.base, .planning⟩ :=
    ⟨by simp [hNoCaptures], trivial⟩
  unfold planChunk at hSound ⊢
  rw [hBound] at hSound ⊢
  simp only at hSound ⊢
  by_cases hSmall : job.suffix.length ≤ chunk
  · obtain ⟨_, renumbered, _, _, hResult, hMoved⟩ :=
      resequenceProjectFrom_spec job.base job.projectId (some job.bound)
    rw [if_pos hSmall, hResult] at hSound ⊢
    have hNone : captures job renumbered = [] := by
      rw [captures_map hMoved, hNoCaptures, List.map_nil]
    exact ⟨⟨hSound, (Kept.refl job.base).update hMoved, by simp [hNone], by simp [hNone]⟩,
      hMoved.lastId⟩
  · rw [if_neg hSmall] at hSound ⊢
    have hInv : ParkingInv job job.base [] job.plan.parking :=
      ⟨rfl, Placed.refl job.base, by simp [hNoCaptures]⟩
    rcases parkChunk_cases (parking_ne_nil hSmall) hInv with ⟨next, hNext, hMoves, _⟩ |
      ⟨_, next, hNext, hMoves, _⟩
    all_goals
      rw [hNext] at hSound ⊢
      exact ⟨⟨hSound, hMoves.kept (Kept.refl job.base), hMoves.sorted hStart, trivial⟩, hMoves.lastId⟩

end Exact

/-- The steps that delete nothing. -/
def KeepsFrames (_ : RenumberState) (action : Action) : Prop :=
  ∀ frameId, action ≠ .delete frameId

theorem run_exact {job : Renumber} {chunk : Nat} {importedIds : List Nat}
    {start stop : RenumberState} {actions : List Action}
    (hRun : Run (Guarded (interleave job.projectId importedIds chunk) KeepsFrames)
      start actions stop) (hStart : Exact job start) :
    Exact job stop := by
  refine hRun.invariant (Exact job) ?_ hStart
  rintro state action _ hExact ⟨rfl, hKeeps⟩
  cases action with
  | chunk => exact hExact.chunk_step.1
  | write target capturedAt => exact hExact.write_step target capturedAt
  | delete frameId => exact absurd rfl (hKeeps frameId)

theorem iterateStep_exact {job : Renumber} {chunk : Nat} {importedIds : List Nat}
    (steps : Nat) : ∀ {start : RenumberState}, Exact job start →
      Exact job (iterateStep (renumberStep job.projectId importedIds chunk) steps start) ∧
        (iterateStep (renumberStep job.projectId importedIds chunk) steps start).table.lastId =
          start.table.lastId := by
  induction steps with
  | zero => exact fun hStart => ⟨hStart, rfl⟩
  | succ steps ih =>
    intro start hStart
    obtain ⟨hNext, hLast⟩ := hStart.chunk_step
    obtain ⟨hStop, hSame⟩ := ih hNext
    exact ⟨hStop, hSame.trans hLast⟩

theorem Kept.captures_eq {job : Renumber} (hKept : Kept job.base table) :
    captures job table =
      (table.rows.drop job.base.rows.length).filter fun row => row.projectId = job.projectId := by
  obtain ⟨hFront, hBack⟩ := hKept.split
  have hTake : ∀ row ∈ table.rows.take job.base.rows.length, row.id ≤ job.base.lastId := by
    intro row hRow
    have hId := List.mem_map_of_mem (f := Frame.id) hRow
    rw [hFront] at hId
    obtain ⟨frame, hFrame, hSame⟩ := List.mem_map.mp hId
    exact hSame ▸ job.base.idsLe frame hFrame
  have hDrop : ∀ row ∈ table.rows.drop job.base.rows.length, job.base.lastId < row.id := by
    intro row hRow
    have hId := List.mem_map_of_mem (f := Frame.id) hRow
    rw [hBack] at hId
    exact (List.mem_range'_1.mp hId).1
  conv_lhs => rw [captures, ← List.take_append_drop job.base.rows.length table.rows]
  rw [List.filter_append]
  have hNone : (table.rows.take job.base.rows.length).filter
      (fun row => job.base.lastId < row.id && row.projectId = job.projectId) = [] := by
    rw [List.filter_eq_nil_iff]
    intro row hRow
    simp [Nat.not_lt_of_le (hTake row hRow)]
  rw [hNone, List.nil_append]
  refine List.filter_congr fun row hRow => ?_
  simp [hDrop row hRow]

/-- **Refinement.**  Without a bound the run writes nothing.  With one, the run
on its own ends with the table and the count of the one-transaction renumber
from that bound.  Among captures it never collides and can always be completed;
no frame is lost, and a completed run has the frames of the plan where the
one-transaction renumber puts them and the captures behind them, in insertion
order and without a gap. -/
theorem chunked_refines (base : FrameTable) (projectId : Nat) (importedIds : List Nat)
    (chunkRows : Option Nat) :
    (renumberBound base projectId importedIds = none →
      renumberStep projectId importedIds (chunkSize chunkRows) ⟨base, .planning⟩ =
        ⟨base, .finished 0⟩) ∧
    ∀ bound, renumberBound base projectId importedIds = some bound →
      ∃ renumbered : FrameTable,
        resequenceProjectFrom base projectId (some bound) =
          some (renumbered, (suffixRows base projectId (some bound)).length) ∧
        renumbered.rows = base.rows.map (relocate frameLayout
          ((suffixOrder base projectId (some bound)).zipIdx
            (suffixStart base projectId (some bound)))) ∧
        (∃ steps, iterateStep (renumberStep projectId importedIds (chunkSize chunkRows)) steps
            ⟨base, .planning⟩ =
          ⟨renumbered, .finished (suffixRows base projectId (some bound)).length⟩) ∧
        ∀ actions state,
          Run (Guarded (interleave projectId importedIds (chunkSize chunkRows)) KeepsFrames)
            (renumberStep projectId importedIds (chunkSize chunkRows) ⟨base, .planning⟩)
            actions state →
          state.phase ≠ .aborted ∧
          Finishes projectId importedIds (chunkSize chunkRows) state ∧
          state.table.rows.map Frame.id = base.rows.map Frame.id ++
            List.range' (base.lastId + 1) (state.table.lastId - base.lastId) ∧
          ∀ count, state.phase = .finished count →
            count = (suffixRows base projectId (some bound)).length ∧
            ∃ captured, state.table.rows = renumbered.rows ++ captured ∧
              (captured.filter fun row => row.projectId = projectId).map Frame.sequenceIndex =
                List.range' (suffixStart base projectId (some bound) +
                    (suffixRows base projectId (some bound)).length)
                  (captured.filter fun row => row.projectId = projectId).length := by
  have hChunk := chunkSize_pos chunkRows
  refine ⟨fun hNone => by simp [renumberStep, planChunk, hNone], ?_⟩
  intro bound hBound
  let job : Renumber := ⟨base, projectId, bound⟩
  obtain ⟨_, renumbered, _, _, hResult, hRows, hLast⟩ :=
    resequenceProjectFrom_spec base projectId (some bound)
  have hLength : job.plan.rows.length = job.suffix.length := (chronological_perm _).length_eq
  obtain ⟨hStart, hPlanned⟩ : Exact job
      (renumberStep job.projectId importedIds (chunkSize chunkRows) ⟨job.base, .planning⟩) ∧ _ :=
    planChunk_exact hChunk hBound
  -- Where a completed run leaves the table.
  have hFinal : ∀ (state : RenumberState) (count : Nat), Exact job state →
      state.phase = .finished count →
      count = (suffixRows base projectId (some bound)).length ∧
        state.table.rows = renumbered.rows ++ state.table.rows.drop base.rows.length := by
    rintro ⟨table, phase⟩ count hExact rfl
    obtain ⟨hCount, hInv⟩ := hExact.sound
    exact ⟨hCount.trans hLength, by rw [hRows]; exact hExact.kept.rows_eq hInv⟩
  refine ⟨renumbered, hResult, hRows, ?_, ?_⟩
  · obtain ⟨steps, count, hFinished⟩ := exists_finished importedIds hChunk hStart.sound
    obtain ⟨hExact, hSame⟩ := iterateStep_exact steps hStart
    replace hSame := hSame.trans hPlanned
    obtain ⟨hCount, hTable⟩ := hFinal _ count hExact hFinished
    refine ⟨steps + 1, ?_⟩
    rw [iterateStep_succ]
    generalize iterateStep (renumberStep projectId importedIds (chunkSize chunkRows)) steps
      (renumberStep projectId importedIds (chunkSize chunkRows) ⟨base, .planning⟩) = final
      at hFinished hExact hSame hTable
    obtain ⟨table, phase⟩ := final
    simp only at hFinished hSame hTable
    have hEnd : table.rows.drop base.rows.length = [] := by
      have hBack := hExact.kept.split.2
      rw [hSame, Nat.sub_self, List.range'_zero] at hBack
      exact List.map_eq_nil_iff.mp hBack
    rw [hEnd, List.append_nil] at hTable
    rw [hFinished, hCount, FrameTable.ext hTable (hSame.trans hLast.symm)]
  · intro actions state hRun
    have hExact : Exact job state := run_exact hRun hStart
    have hFinishes := exists_finished importedIds hChunk hExact.sound
    refine ⟨?_, hFinishes, hExact.kept.ids, ?_⟩
    · intro hAborted
      have hSound := hExact.sound
      simp only [Sound, hAborted] at hSound
    · intro count hFinished
      obtain ⟨hCount, hTable⟩ := hFinal state count hExact hFinished
      refine ⟨hCount, state.table.rows.drop base.rows.length, hTable, ?_⟩
      rw [← hExact.kept.captures_eq]
      have hOrder := hExact.inOrder.2
      simp only [hFinished] at hOrder
      rw [hOrder, ← hLength]
      rfl

/-- Two frames in order, with a gap between their indexes. -/
def gappedTable : FrameTable where
  rows := [⟨1, 7, 1, some 10⟩, ⟨2, 7, 3, some 20⟩]
  lastId := 2
  distinct := ⟨by decide, by decide⟩
  idsLe := by decide

/-- There `_renumber_bound` is `None`: the chunked run returns at once and keeps
the gap, while the one-transaction renumber from `None` closes it. -/
theorem chunked_leaves_gaps :
    renumberBound gappedTable 7 [] = none ∧
      (renumberStep 7 [] (chunkSize none) ⟨gappedTable, .planning⟩).phase = .finished 0 ∧
      (renumberStep 7 [] (chunkSize none) ⟨gappedTable, .planning⟩).table.rows.map
        Frame.sequenceIndex = [1, 3] ∧
      (resequenceProjectFrom gappedTable 7 none).map (fun result =>
        result.1.rows.map Frame.sequenceIndex) = some [1, 2] := by
  decide

/-- A capture after the first park chunk of three frames stored in reverse ends
right behind them. -/
theorem chunked_refines_reversed :
    ∃ state, Run (Guarded (interleave 7 [] (chunkSize (some 1))) KeepsFrames) reversedPlanned
        [.write 7 40, .chunk, .chunk, .chunk, .chunk, .chunk, .chunk] state ∧
      state.phase = .finished 3 ∧
      state.table.rows.map (fun row => (row.id, row.sequenceIndex)) =
        [(1, 3), (2, 2), (3, 1), (4, 4)] ∧
      state.table.rows.map Frame.id = reversedTable.rows.map Frame.id ++
        List.range' 4 (state.table.lastId - 3) := by
  have hRun : Run (Guarded (interleave 7 [] (chunkSize (some 1))) KeepsFrames) reversedPlanned
      [.write 7 40, .chunk, .chunk, .chunk, .chunk, .chunk, .chunk] _ :=
    .cons ⟨rfl, nofun⟩ (.cons ⟨rfl, nofun⟩ (.cons ⟨rfl, nofun⟩ (.cons ⟨rfl, nofun⟩
      (.cons ⟨rfl, nofun⟩ (.cons ⟨rfl, nofun⟩ (.cons ⟨rfl, nofun⟩ (.nil _)))))))
  refine ⟨_, hRun, by decide, by decide, ?_⟩
  obtain ⟨_, _, _, _, hRuns⟩ :=
    (chunked_refines reversedTable 7 [] (some 1)).2 10 (by decide)
  exact (hRuns _ _ hRun).2.2.1

end TimelapseManager.Storage
