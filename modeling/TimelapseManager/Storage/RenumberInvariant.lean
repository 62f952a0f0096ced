import TimelapseManager.Storage.ChunkedRenumber

/-!
# What every committed state of a chunked renumber looks like

Frames that were present at the plan stand where the statements so far have put them (`Placed`);
frames captured since then have larger ids, and are only required to stay out of the way:

* while rows wait to be parked, a capture stands above every index a waiting row will be parked at
  (`ParkingInv`);
* while a live row waits for its final index, a capture stands above every target
  (`AssigningInv`);
* afterwards nothing is required of captures: packing them down is clear in every state.
-/

namespace TimelapseManager.Storage

open SlotTable

/-! ## Frames present at the plan -/

/-- Every frame present in `base` that still exists stands where the statements
of `history`, latest first, have put it. -/
structure Placed (base table : FrameTable) (history : List (Nat × Nat)) : Prop where
  lastIdLe : base.lastId ≤ table.lastId
  origin : ∀ row ∈ table.rows, row.id ≤ base.lastId →
    ∃ frame ∈ base.rows, row = relocate frameLayout history frame

variable {updates : List (Nat × Nat)} {base table : FrameTable} {row : Frame}

namespace Placed

variable {base table next : FrameTable} {history : List (Nat × Nat)}

theorem refl (base : FrameTable) : Placed base base [] :=
  ⟨le_refl _, fun row hRow _ => ⟨row, hRow, rfl⟩⟩

section

variable (hPlaced : Placed base table history)
include hPlaced

theorem congr {other : List (Nat × Nat)}
    (hSame : relocate frameLayout history = relocate frameLayout other) : Placed base table other :=
  ⟨hPlaced.lastIdLe, by rw [← hSame]; exact hPlaced.origin⟩

theorem update (hMoved : table.Moved updates next) : Placed base next (updates ++ history) := by
  refine ⟨hMoved.lastId ▸ hPlaced.lastIdLe, ?_⟩
  intro moved hMem hOld
  obtain ⟨row, hRow, rfl⟩ := hMoved.mem hMem
  rw [relocate_id] at hOld
  obtain ⟨frame, hFrame, rfl⟩ := hPlaced.origin row hRow hOld
  exact ⟨frame, hFrame, (relocate_append frameLayout updates history frame).symm⟩

theorem eq_relocate {frame : Frame} (hRow : row ∈ table.rows) (hFrame : frame ∈ base.rows)
    (hId : row.id = frame.id) : row = relocate frameLayout history frame := by
  obtain ⟨origin, hOrigin, rfl⟩ := hPlaced.origin row hRow (hId ▸ base.idsLe frame hFrame)
  rw [relocate_id] at hId
  rw [base.eq_of_id_eq hOrigin hFrame hId]

theorem originIn {projectId : Nat} (hRow : row ∈ table.rows) (hOld : row.id ≤ base.lastId)
    (hProject : row.projectId = projectId) :
    ∃ frame ∈ base.rows, frame.projectId = projectId ∧
      row = relocate frameLayout history frame := by
  obtain ⟨frame, hFrame, rfl⟩ := hPlaced.origin row hRow hOld
  exact ⟨frame, hFrame, (relocate_projectId _ frame).symm.trans hProject, rfl⟩

theorem write (projectId : Nat) (capturedAt : Int) :
    Placed base (table.write projectId capturedAt) history := by
  refine ⟨Nat.le_succ_of_le hPlaced.lastIdLe, ?_⟩
  intro row hRow hOld
  rcases List.mem_append.mp hRow with hRow | hNew
  · exact hPlaced.origin row hRow hOld
  · rw [List.mem_singleton.mp hNew] at hOld
    have hLast := hPlaced.lastIdLe
    simp only [FrameTable.capturedFrame] at hOld
    omega

theorem permanentDelete (frameId : Nat) : Placed base (table.permanentDelete frameId) history :=
  ⟨hPlaced.lastIdLe, fun row hRow => hPlaced.origin row (List.mem_of_mem_filter hRow)⟩

end

end Placed

/-- `next` comes from `table` by a statement that names frames of the plan only. -/
def MovesPlanned (base table next : FrameTable) : Prop :=
  ∃ updates, (∀ key ∈ updates.map Prod.fst, key ≤ base.lastId) ∧ table.Moved updates next

theorem MovesPlanned.lastId {next : FrameTable} (hMoves : MovesPlanned base table next) :
    next.lastId = table.lastId := by
  obtain ⟨_, _, hMoved⟩ := hMoves
  exact hMoved.lastId

/-- The captures of the project, in insertion order. -/
def captures (job : Renumber) (table : FrameTable) : List Frame :=
  table.rows.filter fun row => job.base.lastId < row.id && row.projectId = job.projectId

variable {job : Renumber}

theorem mem_captures :
    row ∈ captures job table ↔
      row ∈ table.rows ∧ job.base.lastId < row.id ∧ row.projectId = job.projectId := by
  simp [captures]

theorem captures_map {next : FrameTable} (hMoved : table.Moved updates next) :
    captures job next = (captures job table).map (relocate frameLayout updates) := by
  rw [captures, hMoved.rows, List.filter_map, captures]
  congr 1
  refine List.filter_congr fun row _ => ?_
  simp only [Function.comp_apply, relocate_id, relocate_projectId]

theorem MovesPlanned.captures_eq {next : FrameTable}
    (hMoves : MovesPlanned job.base table next) : captures job next = captures job table := by
  obtain ⟨updates, hKeys, hMoved⟩ := hMoves
  rw [captures_map hMoved]
  conv_rhs => rw [← List.map_id (captures job table)]
  refine List.map_congr_left fun row hRow => relocate_of_not_mem frameLayout fun hKey => ?_
  have hNew := (mem_captures.mp hRow).2.1
  have hLe : row.id ≤ job.base.lastId := hKeys _ hKey
  omega

/-! ## The phases -/

section Phases

variable (job : Renumber)

/-- The park phase: `done` is parked, `todo` still stands at its old indexes. -/
structure ParkingInv (table : FrameTable) (done todo : List Frame) : Prop where
  split : job.plan.parking = done ++ todo
  placed : Placed job.base table (parkAssignments done job.plan.offset)
  above : ∀ row ∈ captures job table, ∀ waiting ∈ todo,
    waiting.sequenceIndex + job.plan.offset < row.sequenceIndex

/-- The assign phase: `done` has its final indexes, `todo` is still parked. -/
structure AssigningInv (table : FrameTable) (done todo : List Nat) : Prop where
  split : job.plan.order = done ++ todo
  placed : Placed job.base table
    (done.zipIdx job.plan.start ++ parkAssignments job.plan.parking job.plan.offset)
  above : (∃ row ∈ table.rows, row.id ∈ todo) →
    ∀ row ∈ captures job table, job.plan.stop ≤ row.sequenceIndex

/-- After the assign phase: every planned frame is at its final index. -/
def Renumbered (table : FrameTable) : Prop :=
  Placed job.base table (job.plan.order.zipIdx job.plan.start)

/-- The invariant of a run. -/
def Sound (state : RenumberState) : Prop :=
  match state.phase with
  | .planning => False
  | .parking plan todo =>
    plan = job.plan ∧ todo ≠ [] ∧ ∃ done, done ≠ [] ∧ ParkingInv job state.table done todo
  | .assigning plan todo next =>
    plan = job.plan ∧ todo ≠ [] ∧
      ∃ done, next = plan.start + done.length ∧ AssigningInv job state.table done todo
  | .compacting count next =>
    count = job.plan.rows.length ∧ job.plan.stop ≤ next ∧ Renumbered job state.table
  | .finished count =>
    count = job.plan.rows.length ∧ Renumbered job state.table
  | .aborted => False

end Phases

section Steps

variable {table : FrameTable}

/-! ## Where the frames of the plan stand -/

theorem order_le_lastId {frameId : Nat}
    (hId : frameId ∈ job.plan.order) : frameId ≤ job.base.lastId := by
  obtain ⟨frame, hFrame, rfl⟩ := mem_suffixOrder.mp hId
  exact job.base.idsLe frame (mem_suffixRows.mp hFrame).1

theorem project_of_mem_order {history : List (Nat × Nat)} (hPlaced : Placed job.base table history)
    (hRow : row ∈ table.rows) (hId : row.id ∈ job.plan.order) :
    row.projectId = job.projectId := by
  obtain ⟨frame, hFrame, rfl⟩ := hPlaced.origin row hRow (order_le_lastId hId)
  rw [relocate_id] at hId
  rw [relocate_projectId]
  exact (mem_suffixRows.mp (mem_suffixRows_of_id hFrame hId)).2.1

theorem AssigningInv.mem_order {done todo : List Nat} {frameId : Nat}
    (hInv : AssigningInv job table done todo) (hId : frameId ∈ todo) :
    frameId ∈ job.plan.order := by
  rw [hInv.split]
  exact List.mem_append_right _ hId

variable {done todo : List Frame} {frame : Frame} {chunk : Nat}

theorem mem_suffixRows_of_split (hSplit : job.plan.parking = done ++ todo)
    (hFrame : frame ∈ done ∨ frame ∈ todo) : frame ∈ job.suffix := by
  rw [← mem_planFor_parking, hSplit]
  exact List.mem_append.mpr hFrame

theorem parked_index (hSplit : job.plan.parking = done ++ todo) (hDone : frame ∈ done) :
    relocate frameLayout (parkAssignments done job.plan.offset) frame =
      { frame with sequenceIndex := frame.sequenceIndex + job.plan.offset } := by
  have hIds := parking_ids_nodup job
  rw [hSplit, List.map_append] at hIds
  exact relocate_parkAssignments hIds.of_append_left hDone

theorem unparked_index (hSplit : job.plan.parking = done ++ todo)
    (hFrame : frame ∈ job.base.rows) (hDone : frame ∉ done) :
    relocate frameLayout (parkAssignments done job.plan.offset) frame = frame := by
  refine relocate_parkAssignments_of_not_mem fun hId => ?_
  obtain ⟨other, hOther, hSame⟩ := List.mem_map.mp hId
  have hRow := (mem_suffixRows.mp (mem_suffixRows_of_split hSplit (Or.inl hOther))).1
  rw [job.base.eq_of_id_eq hRow hFrame hSame] at hOther
  exact hDone hOther

theorem assigning_index {done todo : List Nat}
    (hSplit : job.plan.order = done ++ todo) (hFrame : frame ∈ job.base.rows)
    (hProject : frame.projectId = job.projectId) :
    let plan := job.plan
    let row := relocate frameLayout
      (done.zipIdx plan.start ++ parkAssignments plan.parking plan.offset) frame
    (frame.id ∉ todo ∧ row.sequenceIndex < plan.start + done.length) ∨
      (frame.id ∈ todo ∧ plan.stop ≤ row.sequenceIndex) := by
  have hNodup := planFor_order_nodup job
  rw [hSplit] at hNodup
  have hDisjoint := List.disjoint_of_nodup_append hNodup
  simp only [relocate_append]
  by_cases hOrder : frame.id ∈ job.plan.order
  · have hRows := (mem_order_iff hFrame).mp hOrder
    rw [relocate_parkAssignments (parking_ids_nodup job) ((parking_perm _).mem_iff.mpr hRows)]
    by_cases hDone : frame.id ∈ done
    · left
      obtain ⟨position, hPosition⟩ := List.mem_iff_getElem?.mp hDone
      have hLt := (List.getElem?_eq_some_iff.mp hPosition).1
      rw [relocate_zipIdx hNodup.of_append_left (by simpa using hPosition)]
      exact ⟨fun hTodo => hDisjoint hDone hTodo, Nat.add_lt_add_left hLt _⟩
    · right
      rw [relocate_zipIdx_of_not_mem (by simpa using hDone)]
      have hTodo : frame.id ∈ todo := by
        rw [hSplit] at hOrder
        exact (List.mem_append.mp hOrder).resolve_left hDone
      have hStop := stop_le_offset job
      exact ⟨hTodo, by simp only; omega⟩
  · left
    have hParking : frame.id ∉ job.plan.parking.map Frame.id := by
      rw [((parking_perm _).map Frame.id).mem_iff]
      exact hOrder
    have hDone : frame.id ∉ done := by
      intro hDone
      rw [hSplit] at hOrder
      exact hOrder (List.mem_append_left _ hDone)
    rw [relocate_parkAssignments_of_not_mem hParking, relocate_zipIdx_of_not_mem hDone]
    have hStart := index_lt_start hFrame hProject hOrder
    refine ⟨fun hTodo => hOrder ?_, by omega⟩
    rw [hSplit]
    exact List.mem_append_right _ hTodo

/-! ## The transactions of the run -/

theorem split_chunk {α : Type} {all done todo : List α} (hSplit : all = done ++ todo)
    (chunk : Nat) : all = (done ++ todo.take chunk) ++ todo.drop chunk := by
  rw [hSplit, List.append_assoc, List.take_append_drop]

theorem parkChunk_clear (hInv : ParkingInv job table done todo) :
    Clear frameLayout table.rows job.projectId
      (parkAssignments (todo.take chunk) job.plan.offset) := by
  have hSplit := split_chunk hInv.split chunk
  have hIds := parking_ids_nodup job
  have hSorted := parking_sorted job
  rw [hSplit, List.map_append, List.map_append] at hIds
  rw [hSplit] at hSorted
  refine parkAssignments_clear hIds.of_append_left.of_append_right ?_ ?_ ?_ (List.Perm.refl _)
  · exact List.pairwise_map.mpr
      ((List.pairwise_append.mp (List.pairwise_append.mp hSorted).1).2.1.imp
        fun hLt => Nat.ne_of_gt hLt)
  · intro row hRow hId
    obtain ⟨frame, hFrame, hSame⟩ := List.mem_map.mp hId
    have hSuffix := mem_suffixRows_of_split hInv.split (Or.inr (List.mem_of_mem_take hFrame))
    exact project_of_mem_order hInv.placed hRow (mem_suffixOrder.mpr ⟨frame, hSuffix, hSame⟩)
  · intro row hRow hProject waiting hWaiting hEqual
    by_cases hOld : row.id ≤ job.base.lastId
    · obtain ⟨frame, hFrame, hFrameProject, rfl⟩ := hInv.placed.originIn hRow hOld hProject
      by_cases hDone : frame ∈ done
      · -- Two parked rows keep the distance of their old indexes.
        rw [parked_index hInv.split hDone] at hEqual
        simp only [Nat.add_right_cancel_iff] at hEqual
        have hLt := (List.pairwise_append.mp (List.pairwise_append.mp hSorted).1).2.2
          frame hDone waiting hWaiting
        omega
      · rw [unparked_index hInv.split hFrame hDone] at hEqual
        have hLt : frame.sequenceIndex < job.plan.offset :=
          index_lt_parkOffset _ hFrame hFrameProject
        omega
    · -- A row the plan has not seen is a capture.
      have hAbove := hInv.above row
        (mem_captures.mpr ⟨hRow, Nat.lt_of_not_le hOld, hProject⟩) waiting
        (List.mem_of_mem_take hWaiting)
      omega

theorem parkChunk_spec (hInv : ParkingInv job table done todo) :
    ∃ next : FrameTable,
      table.setSequenceIndexes (parkAssignments (todo.take chunk) job.plan.offset) = some next ∧
      MovesPlanned job.base table next ∧
      ParkingInv job next (done ++ todo.take chunk) (todo.drop chunk) := by
  have hSplit := split_chunk hInv.split chunk
  obtain ⟨next, hNext, hMoved⟩ := table.setSequenceIndexes_of_clear (parkChunk_clear hInv)
  have hMoves : MovesPlanned job.base table next := by
    refine ⟨_, ?_, hMoved⟩
    intro key hKey
    rw [parkAssignments_keys] at hKey
    obtain ⟨frame, hFrame, rfl⟩ := List.mem_map.mp hKey
    have hSuffix := mem_suffixRows_of_split hInv.split (Or.inr (List.mem_of_mem_take hFrame))
    exact job.base.idsLe frame (mem_suffixRows.mp hSuffix).1
  refine ⟨next, hNext, hMoves, hSplit, ?_, ?_⟩
  · -- The chunk's moves join those of the chunks before it.
    have hIds := parking_ids_nodup job
    rw [hSplit, List.map_append, List.map_append] at hIds
    refine (hInv.placed.update hMoved).congr ?_
    refine relocate_perm frameLayout ?_ ?_
    · rw [parkAssignments, parkAssignments, parkAssignments, List.map_append]
      exact List.perm_append_comm
    · rw [List.map_append, parkAssignments_keys, parkAssignments_keys]
      exact List.perm_append_comm.nodup_iff.mp hIds.of_append_left
  · rw [hMoves.captures_eq]
    intro row hRow waiting hWaiting
    exact hInv.above row hRow waiting (List.mem_of_mem_drop hWaiting)

theorem ParkingInv.toAssigning (hInv : ParkingInv job table done [])
    (hAbove : ∀ row ∈ captures job table, job.plan.offset < row.sequenceIndex) :
    AssigningInv job table [] job.plan.order := by
  refine ⟨rfl, ?_, ?_⟩
  · have hPlaced := hInv.placed
    have hSplit := hInv.split
    rw [List.append_nil] at hSplit
    rw [← hSplit] at hPlaced
    exact hPlaced
  · intro _ row hRow
    have hLt := hAbove row hRow
    have hStop := stop_le_offset job
    omega

theorem assignChunk_clear {done todo : List Nat} (hInv : AssigningInv job table done todo)
    (hLive : ∃ row ∈ table.rows, row.id ∈ todo) :
    Clear frameLayout table.rows job.projectId ((todo.take chunk).zipIdx
      (job.plan.start + done.length)) := by
  have hSplit := split_chunk hInv.split chunk
  have hNodup := planFor_order_nodup job
  rw [hSplit] at hNodup
  have hRoom : job.plan.start + done.length + (todo.take chunk).length ≤ job.plan.stop := by
    have hLength := congrArg List.length hSplit
    simp only [length_order, List.length_append] at hLength
    unfold Plan.stop
    omega
  refine zipIdx_clear hNodup.of_append_left.of_append_right ?_ ?_ (List.Perm.refl _)
  · intro row hRow hId
    exact project_of_mem_order hInv.placed hRow (hInv.mem_order (List.mem_of_mem_take hId))
  · intro row hRow hProject
    by_cases hOld : row.id ≤ job.base.lastId
    · obtain ⟨frame, hFrame, hFrameProject, rfl⟩ := hInv.placed.originIn hRow hOld hProject
      rcases assigning_index hInv.split hFrame hFrameProject with ⟨_, hLow⟩ | ⟨_, hHigh⟩
      · exact Or.inl hLow
      · exact Or.inr (hRoom.trans hHigh)
    · have hCapture := mem_captures.mpr ⟨hRow, Nat.lt_of_not_le hOld, hProject⟩
      exact Or.inr (hRoom.trans (hInv.above hLive row hCapture))

theorem assignChunk_spec {done todo : List Nat} (hInv : AssigningInv job table done todo) :
    ∃ next : FrameTable,
      table.setSequenceIndexes ((todo.take chunk).zipIdx
        (job.plan.start + done.length)) = some next ∧
      MovesPlanned job.base table next ∧
      AssigningInv job next (done ++ todo.take chunk) (todo.drop chunk) := by
  let start := job.plan.start
  have hSplit := split_chunk hInv.split chunk
  have hKeys : ∀ key ∈ ((todo.take chunk).zipIdx (start + done.length)).map Prod.fst,
      key ≤ job.base.lastId := by
    intro key hKey
    rw [List.zipIdx_map_fst] at hKey
    exact order_le_lastId (hInv.mem_order (List.mem_of_mem_take hKey))
  obtain ⟨next, hNext, hMoved⟩ : ∃ next,
      table.setSequenceIndexes ((todo.take chunk).zipIdx (start + done.length)) = some next ∧
      table.Moved ((todo.take chunk).zipIdx (start + done.length)) next := by
    by_cases hLive : ∃ row ∈ table.rows, row.id ∈ todo
    · exact table.setSequenceIndexes_of_clear (assignChunk_clear hInv hLive)
    · -- Captures may have passed the targets by now, but no row is written either.
      refine table.setSequenceIndexes_of_placeAll (placeAll_of_absent frameLayout ?_)
      intro row hRow hId
      rw [List.zipIdx_map_fst] at hId
      exact hLive ⟨row, hRow, List.mem_of_mem_take hId⟩
  have hMoves : MovesPlanned job.base table next := ⟨_, hKeys, hMoved⟩
  refine ⟨next, hNext, hMoves, hSplit, ?_, ?_⟩
  · have hNodup := planFor_order_nodup job
    rw [hSplit] at hNodup
    refine (hInv.placed.update hMoved).congr ?_
    have hPerm : relocate frameLayout ((todo.take chunk).zipIdx (start + done.length) ++
          done.zipIdx start) = relocate frameLayout ((done ++ todo.take chunk).zipIdx start) := by
      refine relocate_perm frameLayout ?_ ?_
      · rw [List.zipIdx_append]
        exact List.perm_append_comm
      · rw [List.map_append, List.zipIdx_map_fst, List.zipIdx_map_fst]
        exact List.perm_append_comm.nodup_iff.mp hNodup.of_append_left
    funext frame
    rw [← List.append_assoc, relocate_append, hPerm, ← relocate_append]
  · -- A row that still waits after the chunk waited before it, so captures stayed above.
    rintro ⟨live, hLiveRow, hLiveTodo⟩
    obtain ⟨waiting, hWaiting, rfl⟩ := hMoved.mem hLiveRow
    rw [relocate_id] at hLiveTodo
    rw [hMoves.captures_eq]
    exact hInv.above ⟨waiting, hWaiting, List.mem_of_mem_drop hLiveTodo⟩

theorem AssigningInv.renumbered {done : List Nat}
    (hInv : AssigningInv job table done []) :
    Renumbered job table := by
  have hSplit := hInv.split
  rw [List.append_nil] at hSplit
  have hPlaced := hInv.placed
  rw [← hSplit] at hPlaced
  refine hPlaced.congr ?_
  funext frame
  rw [relocate_append]
  refine relocate_relocate frameLayout ?_ frame
  intro key hKey
  rw [parkAssignments_keys] at hKey
  rw [List.zipIdx_map_fst]
  exact ((parking_perm _).map Frame.id).mem_iff.mp hKey

theorem Renumbered.index_lt_stop (hInv : Renumbered job table)
    (hRow : row ∈ table.rows) (hOld : row.id ≤ job.base.lastId)
    (hProject : row.projectId = job.projectId) : row.sequenceIndex < job.plan.stop := by
  obtain ⟨frame, hFrame, hFrameProject, rfl⟩ := hInv.originIn hRow hOld hProject
  by_cases hOrder : frame.id ∈ job.plan.order
  · obtain ⟨position, hPosition⟩ := List.mem_iff_getElem?.mp hOrder
    have hLt := (List.getElem?_eq_some_iff.mp hPosition).1
    rw [relocate_zipIdx (planFor_order_nodup job) hPosition]
    rw [length_order] at hLt
    exact Nat.add_lt_add_left hLt _
  · rw [relocate_zipIdx_of_not_mem hOrder]
    exact Nat.lt_of_lt_of_le (index_lt_start hFrame hFrameProject hOrder) (Nat.le_add_right _ _)

end Steps

/-! ## Compaction -/

section Compact

variable {table : FrameTable} {next : Nat}

theorem compactChunk_spec (hInv : Renumbered job table) (hNext : job.plan.stop ≤ next) :
    ∃ packed,
      table.setSequenceIndexes (compactMoves table job.projectId next) = some packed ∧
      table.Moved (compactMoves table job.projectId next) packed ∧ Renumbered job packed := by
  obtain ⟨packed, hPacked, hMoved⟩ :=
    table.setSequenceIndexes_of_clear (compactTail_clear table job.projectId next)
  refine ⟨packed, hPacked, hMoved, hMoved.lastId ▸ hInv.lastIdLe, ?_⟩
  intro moved hMem hOld
  obtain ⟨row, hRow, rfl⟩ := hMoved.mem hMem
  rw [relocate_id] at hOld
  have hNotTail : row ∉ compactTail table job.projectId next := by
    intro hTail
    obtain ⟨⟨_, hProject⟩, hLow⟩ := mem_compactTail hTail
    have hLt := hInv.index_lt_stop hRow hOld hProject
    omega
  rw [relocate_pack_of_not_mem table.distinct (fun row hRow => (mem_compactTail hRow).1)
    hRow hNotTail]
  exact hInv.origin row hRow hOld

theorem relocate_pack_le (projectId next : Nat) (hRow : row ∈ table.rows) :
    (relocate frameLayout (compactMoves table projectId next) row).sequenceIndex ≤
      row.sequenceIndex := by
  have hTail : ∀ row ∈ compactTail table projectId next,
      row ∈ table.rows ∧ frameLayout.group row = projectId :=
    fun row hRow => (mem_compactTail hRow).1
  by_cases hMem : row ∈ compactTail table projectId next
  · obtain ⟨position, hPosition⟩ := List.mem_iff_getElem?.mp hMem
    rw [relocate_pack table.distinct hTail (compactTail_sorted table projectId next) hPosition]
    exact add_position_le_slot frameLayout (compactTail_sorted table projectId next)
      (fun row hRow => (mem_compactTail hRow).2) hPosition
  · rw [relocate_pack_of_not_mem table.distinct hTail hRow hMem]

end Compact

end TimelapseManager.Storage
