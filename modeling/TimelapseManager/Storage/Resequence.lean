import TimelapseManager.Storage.FrameTable
import TimelapseManager.Lib.Inversions

/-!
# Renumbering the suffix of a project

`storage/frames.py`: the detector of a broken order and the one-transaction repair.  The browser
pages through a project in `sequence_index` order and assumes that this order tracks
`(capture_timestamp with nulls last, id)`.

`resequenceProjectFrom` renumbers the rows at or after a bound, the rows without a timestamp
included, in two phases: *park* the suffix above every index in use, then *assign* the final
indexes.
-/

namespace TimelapseManager.Storage

open SlotTable Inversions

/-! ## The suffix and its first index -/

/-- `Frame.capture_timestamp < bound`; SQL makes this false for `NULL`. -/
def Frame.isBefore (bound : Int) (frame : Frame) : Bool :=
  match frame.captureTimestamp with
  | some timestamp => timestamp < bound
  | none => false

/-- `(Frame.capture_timestamp >= bound) | Frame.capture_timestamp.is_(None)`. -/
def Frame.isAtOrAfter (bound : Int) (frame : Frame) : Bool :=
  match frame.captureTimestamp with
  | some timestamp => bound ≤ timestamp
  | none => true

theorem Frame.isBefore_eq_not (bound : Int) (frame : Frame) :
    frame.isBefore bound = !frame.isAtOrAfter bound := by
  unfold Frame.isBefore Frame.isAtOrAfter
  cases frame.captureTimestamp with
  | none => rfl
  | some timestamp => simp only [← decide_not, not_le]

variable (table : FrameTable) (projectId : Nat)

/-- `_suffix_predicate`: the rows to renumber and the first index to hand out.
Without a bound the suffix is the whole project. -/
def suffixPredicate : Option Int → (Frame → Bool) × Nat
  | none => (fun frame => frame.projectId = projectId, 1)
  | some bound =>
    (fun frame => frame.projectId = projectId && frame.isAtOrAfter bound,
      (maxSequenceIndex
        ((table.inProject projectId).filter fun frame => frame.isBefore bound)).getD 0 + 1)

/-- The rows selected by `in_suffix`, in table order. -/
def suffixRows (fromTs : Option Int) : List Frame :=
  table.rows.filter (suffixPredicate table projectId fromTs).1

/-- The first index the renumber hands out. -/
def suffixStart (fromTs : Option Int) : Nat :=
  (suffixPredicate table projectId fromTs).2

/-- The suffix ids in the order they are numbered. -/
def suffixOrder (fromTs : Option Int) : List Nat :=
  (chronological (suffixRows table projectId fromTs)).map Frame.id

/-- `current_max + len(ids) + 1`: above every index in use and every target. -/
def parkOffset (table : FrameTable) (projectId count : Nat) : Nat :=
  (maxSequenceIndex (table.inProject projectId)).getD 0 + count + 1

/-- The park updates: each row moves up by one constant offset. -/
def parkAssignments (frames : List Frame) (offset : Nat) : List (Nat × Nat) :=
  frames.map fun frame => (frame.id, frame.sequenceIndex + offset)

/-- `resequence_project_from`.  The park statement visits the suffix in table
order; the assign statement visits it in numbering order.  Returns the table
and the number of rows renumbered, or `none` on an `IntegrityError`. -/
def resequenceProjectFrom (fromTs : Option Int) : Option (FrameTable × Nat) :=
  let suffix := suffixRows table projectId fromTs
  let ids := suffixOrder table projectId fromTs
  if ids = [] then
    some (table, 0)
  else
    (table.setSequenceIndexes
      (parkAssignments suffix (parkOffset table projectId ids.length))).bind fun parked =>
        (parked.setSequenceIndexes
          (ids.zipIdx (suffixStart table projectId fromTs))).map fun renumbered =>
            (renumbered, ids.length)

/-! ## The detector -/

/-- `_breaks_order`: whether `current` sorts before `previous`.  A row without
a timestamp is never flagged; behind one, every timed row is. -/
def breaksOrder (previous current : Frame) : Bool :=
  match current.captureTimestamp, previous.captureTimestamp with
  | none, _ => false
  | some _, none => true
  | some timestamp, some earlier =>
    timestamp < earlier || (timestamp = earlier && current.id < previous.id)

/-- The rows of a project in `sequence_index` order. -/
def indexWalk : List Frame :=
  byIndex (table.inProject projectId)

/-- The timestamps of the rows that the walk flags against their predecessor. -/
def flaggedTimestamps : List Int :=
  (adjacent (indexWalk table projectId)).filterMap fun pair =>
    if breaksOrder pair.1 pair.2 then pair.2.captureTimestamp else none

/-- `earliest_out_of_order_timestamp`: the smallest flagged timestamp. -/
def earliestOutOfOrderTimestamp : Option Int :=
  (flaggedTimestamps table projectId).min?

/-- `_renumber_bound`: the earlier of the imported rows' smallest timestamp and
the detector's answer.  The imported ids are looked up across all projects. -/
def renumberBound (importedIds : List Nat) : Option Int :=
  let importedMin :=
    if importedIds = [] then none
    else ((table.rows.filter fun frame => frame.id ∈ importedIds).filterMap
      Frame.captureTimestamp).min?
  let disorder := earliestOutOfOrderTimestamp table projectId
  ([importedMin, disorder].filterMap id).min?

/-- `_resequence_after_import`: nothing is written when there is no bound. -/
def resequenceAfterImport (importedIds : List Nat) : Option (FrameTable × Nat) :=
  match renumberBound table projectId importedIds with
  | none => some (table, 0)
  | some bound => resequenceProjectFrom table projectId (some bound)

/-! ## What the suffix is -/

/-- The part of `in_suffix` that looks at the timestamp. -/
def Frame.isFrom (fromTs : Option Int) (frame : Frame) : Bool :=
  match fromTs with
  | none => true
  | some bound => frame.isAtOrAfter bound

variable {frame : Frame} {table : FrameTable} {projectId offset start : Nat} {fromTs : Option Int}
  {frames : List Frame} {updates : List (Nat × Nat)} {ids : List Nat}

theorem mem_suffixRows :
    frame ∈ suffixRows table projectId fromTs ↔
      frame ∈ table.rows ∧ frame.projectId = projectId ∧ frame.isFrom fromTs = true := by
  unfold suffixRows suffixPredicate Frame.isFrom
  cases fromTs <;> simp

theorem suffixStart_some (table : FrameTable) (projectId : Nat) (bound : Int) :
    suffixStart table projectId (some bound) =
      (maxSequenceIndex ((table.inProject projectId).filter
        fun frame => frame.isBefore bound)).getD 0 + 1 := rfl

theorem lt_suffixStart (hFrame : frame ∈ table.rows) (hProject : frame.projectId = projectId)
    (hPrefix : frame.isFrom fromTs = false) :
    frame.sequenceIndex < suffixStart table projectId fromTs := by
  cases fromTs with
  | none => simp [Frame.isFrom] at hPrefix
  | some bound =>
    have hBefore : frame.isBefore bound = true := by
      rw [Frame.isBefore_eq_not, show frame.isAtOrAfter bound = false from hPrefix]
      rfl
    have hMem : frame ∈ (table.inProject projectId).filter fun frame => frame.isBefore bound :=
      List.mem_filter.mpr ⟨FrameTable.mem_inProject.mpr ⟨hFrame, hProject⟩, hBefore⟩
    have hLe := le_maxSequenceIndex hMem
    rw [suffixStart_some]
    omega

theorem mem_suffixOrder {frameId : Nat} :
    frameId ∈ suffixOrder table projectId fromTs ↔
      ∃ frame ∈ suffixRows table projectId fromTs, frame.id = frameId := by
  simp [suffixOrder]

theorem mem_suffixRows_of_id (hFrame : frame ∈ table.rows)
    (hId : frame.id ∈ suffixOrder table projectId fromTs) :
    frame ∈ suffixRows table projectId fromTs := by
  obtain ⟨other, hOther, hEq⟩ := mem_suffixOrder.mp hId
  have hSame := table.eq_of_id_eq (mem_suffixRows.mp hOther).1 hFrame hEq
  rwa [← hSame]

section

variable (table projectId fromTs)

theorem suffixStart_le :
    suffixStart table projectId fromTs ≤
      (maxSequenceIndex (table.inProject projectId)).getD 0 + 1 := by
  cases fromTs with
  | none => simp [suffixStart, suffixPredicate]
  | some bound =>
    rw [suffixStart_some]
    have hLe : (maxSequenceIndex
        ((table.inProject projectId).filter fun frame => frame.isBefore bound)).getD 0 ≤
        (maxSequenceIndex (table.inProject projectId)).getD 0 :=
      maxSequenceIndex_le fun frame hFrame =>
        le_maxSequenceIndex (List.mem_of_mem_filter hFrame)
    omega

@[simp] theorem length_suffixOrder :
    (suffixOrder table projectId fromTs).length = (suffixRows table projectId fromTs).length := by
  simp [suffixOrder]

theorem suffixRows_ids_nodup : ((suffixRows table projectId fromTs).map Frame.id).Nodup :=
  table.distinct.keys.sublist (List.filter_sublist.map _)

theorem suffixRows_indexes_nodup :
    ((suffixRows table projectId fromTs).map Frame.sequenceIndex).Nodup := by
  refine (List.nodup_map_iff_inj_on
    (List.Nodup.of_map _ (suffixRows_ids_nodup table projectId fromTs))).mpr ?_
  intro first hFirst second hSecond hIndex
  obtain ⟨hFirstRow, hFirstProject, _⟩ := mem_suffixRows.mp hFirst
  obtain ⟨hSecondRow, hSecondProject, _⟩ := mem_suffixRows.mp hSecond
  exact table.eq_of_index_eq hFirstRow hSecondRow (hFirstProject.trans hSecondProject.symm) hIndex

theorem suffixOrder_nodup : (suffixOrder table projectId fromTs).Nodup :=
  ((chronological_perm _).map Frame.id).nodup_iff.mpr (suffixRows_ids_nodup table projectId fromTs)

theorem start_add_length_le_parkOffset :
    suffixStart table projectId fromTs + (suffixOrder table projectId fromTs).length ≤
      parkOffset table projectId (suffixOrder table projectId fromTs).length := by
  have hStart := suffixStart_le table projectId fromTs
  unfold parkOffset
  omega

end

/-! ## The two statements collide with nothing -/

@[simp] theorem parkAssignments_keys (frames : List Frame) (offset : Nat) :
    (parkAssignments frames offset).map Prod.fst = frames.map Frame.id := by
  simp [parkAssignments]

theorem parkAssignments_clear (hIds : (frames.map Frame.id).Nodup)
    (hIndexes : (frames.map Frame.sequenceIndex).Nodup)
    (hProject : ∀ row ∈ table.rows, row.id ∈ frames.map Frame.id → row.projectId = projectId)
    (hFree : ∀ row ∈ table.rows, row.projectId = projectId → ∀ frame ∈ frames,
      row.sequenceIndex ≠ frame.sequenceIndex + offset)
    (hPerm : updates.Perm (parkAssignments frames offset)) :
    Clear frameLayout table.rows projectId updates := by
  have hKeysPerm := hPerm.map Prod.fst
  have hTargetsPerm := hPerm.map Prod.snd
  rw [parkAssignments_keys] at hKeysPerm
  apply Clear.of_fresh
  · exact hKeysPerm.nodup_iff.mpr hIds
  · rw [hTargetsPerm.nodup_iff, parkAssignments, List.map_map]
    have hShift : (Prod.snd ∘ fun frame : Frame => (frame.id, frame.sequenceIndex + offset)) =
        (· + offset) ∘ Frame.sequenceIndex := rfl
    rw [hShift, ← List.map_map]
    exact hIndexes.map fun _ _ hEq => Nat.add_right_cancel hEq
  · intro row hRow hKey
    exact hProject row hRow (hKeysPerm.mem_iff.mp hKey)
  · intro row hRow hGroup hTarget
    have hParked := hTargetsPerm.mem_iff.mp hTarget
    simp only [parkAssignments, List.map_map, List.mem_map] at hParked
    obtain ⟨frame, hFrame, hEq⟩ := hParked
    exact hFree row hRow hGroup frame hFrame hEq.symm

theorem relocate_parkAssignments (hIds : (frames.map Frame.id).Nodup) (hFrame : frame ∈ frames) :
    relocate frameLayout (parkAssignments frames offset) frame =
      { frame with sequenceIndex := frame.sequenceIndex + offset } := by
  have hMem : (frameLayout.key frame, frame.sequenceIndex + offset) ∈
      parkAssignments frames offset :=
    List.mem_map.mpr ⟨frame, hFrame, rfl⟩
  rw [relocate_of_mem frameLayout (by rwa [parkAssignments_keys]) hMem, frameLayout_move]

theorem relocate_parkAssignments_of_not_mem (hId : frame.id ∉ frames.map Frame.id) :
    relocate frameLayout (parkAssignments frames offset) frame = frame :=
  relocate_of_not_mem frameLayout (by rwa [parkAssignments_keys])

theorem relocate_zipIdx (hIds : ids.Nodup) {position : Nat}
    (hPosition : ids[position]? = some frame.id) :
    relocate frameLayout (ids.zipIdx start) frame =
      { frame with sequenceIndex := start + position } := by
  have hMem : (frameLayout.key frame, start + position) ∈ ids.zipIdx start := by
    rw [List.mem_zipIdx_iff_le_and_getElem?_sub]
    simp [hPosition]
  rw [relocate_of_mem frameLayout (by rwa [List.zipIdx_map_fst]) hMem, frameLayout_move]

theorem relocate_zipIdx_of_not_mem (hId : frame.id ∉ ids) :
    relocate frameLayout (ids.zipIdx start) frame = frame :=
  relocate_of_not_mem frameLayout (by rwa [List.zipIdx_map_fst])

theorem zipIdx_clear (hIds : ids.Nodup)
    (hProject : ∀ frame ∈ table.rows, frame.id ∈ ids → frame.projectId = projectId)
    (hFree : ∀ frame ∈ table.rows, frame.projectId = projectId →
      frame.sequenceIndex < start ∨ start + ids.length ≤ frame.sequenceIndex)
    (hPerm : updates.Perm (ids.zipIdx start)) : Clear frameLayout table.rows projectId updates := by
  have hKeysPerm := hPerm.map Prod.fst
  have hTargetsPerm := hPerm.map Prod.snd
  rw [List.zipIdx_map_fst] at hKeysPerm
  rw [List.zipIdx_map_snd] at hTargetsPerm
  apply Clear.of_fresh
  · exact hKeysPerm.nodup_iff.mpr hIds
  · exact hTargetsPerm.nodup_iff.mpr List.nodup_range'
  · intro row hRow hKey
    exact hProject row hRow (hKeysPerm.mem_iff.mp hKey)
  · intro row hRow hGroup hTarget
    have hRange := List.mem_range'_1.mp (hTargetsPerm.mem_iff.mp hTarget)
    have hFreeRow := hFree row hRow hGroup
    simp only [frameLayout_slot] at hRange
    omega

/-! ## What the renumber leaves behind -/

theorem park_rows {parked : FrameTable} {moved : Frame}
    (hParked : table.Moved (parkAssignments (suffixRows table projectId fromTs) offset) parked)
    (hMoved : moved ∈ parked.rows) (hProject : moved.projectId = projectId) :
    (moved ∈ table.rows ∧ moved.isFrom fromTs = false) ∨ offset ≤ moved.sequenceIndex := by
  obtain ⟨frame, hFrame, rfl⟩ := hParked.mem hMoved
  have hGroup : frame.projectId = projectId := by
    rwa [relocate_projectId] at hProject
  cases hFrom : frame.isFrom fromTs with
  | false =>
    have hNot : frame.id ∉ (suffixRows table projectId fromTs).map Frame.id := by
      intro hKey
      have hSuffix := mem_suffixRows_of_id hFrame (mem_suffixOrder.mpr (List.mem_map.mp hKey))
      rw [(mem_suffixRows.mp hSuffix).2.2] at hFrom
      cases hFrom
    rw [relocate_parkAssignments_of_not_mem hNot]
    exact Or.inl ⟨hFrame, hFrom⟩
  | true =>
    right
    rw [relocate_parkAssignments (suffixRows_ids_nodup table projectId fromTs)
      (mem_suffixRows.mpr ⟨hFrame, hGroup, hFrom⟩)]
    exact Nat.le_add_left _ _

theorem index_lt_parkOffset (count : Nat) (hFrame : frame ∈ table.rows)
    (hProject : frame.projectId = projectId) :
    frame.sequenceIndex < parkOffset table projectId count := by
  have hLe := le_maxSequenceIndex (FrameTable.mem_inProject.mpr ⟨hFrame, hProject⟩)
  unfold parkOffset
  omega

/-- What the first statement of the renumber writes. -/
abbrev suffixParking (table : FrameTable) (projectId : Nat) (fromTs : Option Int) :
    List (Nat × Nat) :=
  parkAssignments (suffixRows table projectId fromTs)
    (parkOffset table projectId (suffixRows table projectId fromTs).length)

/-- What the second one writes. -/
abbrev suffixMoves (table : FrameTable) (projectId : Nat) (fromTs : Option Int) :
    List (Nat × Nat) :=
  (suffixOrder table projectId fromTs).zipIdx (suffixStart table projectId fromTs)

theorem suffixPark_clear (table : FrameTable) (projectId : Nat) (fromTs : Option Int)
    (hPerm : updates.Perm (suffixParking table projectId fromTs)) :
    Clear frameLayout table.rows projectId updates := by
  refine parkAssignments_clear (suffixRows_ids_nodup table projectId fromTs)
    (suffixRows_indexes_nodup table projectId fromTs) ?_ ?_ hPerm
  · intro row hRow hId
    have hSuffix := mem_suffixRows_of_id hRow (mem_suffixOrder.mpr (List.mem_map.mp hId))
    exact (mem_suffixRows.mp hSuffix).2.1
  · intro row hRow hProject frame _ hEq
    have hLt := index_lt_parkOffset (suffixRows table projectId fromTs).length hRow hProject
    omega

theorem suffixAssign_clear {parked : FrameTable}
    (hParked : table.Moved (suffixParking table projectId fromTs) parked)
    (hPerm : updates.Perm (suffixMoves table projectId fromTs)) :
    Clear frameLayout parked.rows projectId updates := by
  refine zipIdx_clear (suffixOrder_nodup table projectId fromTs) ?_ ?_ hPerm
  · intro moved hMoved hId
    obtain ⟨frame, hFrame, rfl⟩ := hParked.mem hMoved
    -- Parking keeps a row's id and project, so the row is looked up in the old table.
    rw [relocate_id] at hId
    rw [relocate_projectId]
    exact (mem_suffixRows.mp (mem_suffixRows_of_id hFrame hId)).2.1
  · intro moved hMoved hProject
    rcases park_rows hParked hMoved hProject with ⟨hRow, hFrom⟩ | hOffset
    · exact Or.inl (lt_suffixStart hRow hProject hFrom)
    · have hSpace := start_add_length_le_parkOffset table projectId fromTs
      rw [length_suffixOrder] at hSpace ⊢
      exact Or.inr (hSpace.trans hOffset)

theorem resequenceProjectFrom_spec (table : FrameTable) (projectId : Nat) (fromTs : Option Int) :
    ∃ parked renumbered : FrameTable,
      (∀ updates, updates.Perm (suffixParking table projectId fromTs) →
        table.setSequenceIndexes updates = some parked) ∧
      (∀ updates, updates.Perm (suffixMoves table projectId fromTs) →
        parked.setSequenceIndexes updates = some renumbered) ∧
      resequenceProjectFrom table projectId fromTs =
        some (renumbered, (suffixRows table projectId fromTs).length) ∧
      table.Moved (suffixMoves table projectId fromTs) renumbered := by
  obtain ⟨parked, hParked, hPark⟩ :=
    table.setSequenceIndexes_of_clear (suffixPark_clear table projectId fromTs (List.Perm.refl _))
  obtain ⟨renumbered, hRenumbered, hAssign⟩ :=
    parked.setSequenceIndexes_of_clear (suffixAssign_clear hPark (List.Perm.refl _))
  -- Every parked row gets its final index, so the second statement overwrites the first.
  have hOverwrite : ∀ key ∈ (suffixParking table projectId fromTs).map Prod.fst,
      key ∈ (suffixMoves table projectId fromTs).map Prod.fst := by
    intro key hKey
    rw [parkAssignments_keys] at hKey
    rw [List.zipIdx_map_fst]
    exact mem_suffixOrder.mpr (List.mem_map.mp hKey)
  have hFinal : table.Moved (suffixMoves table projectId fromTs) renumbered := by
    refine ⟨?_, hAssign.lastId.trans hPark.lastId⟩
    rw [hAssign.rows, hPark.rows, List.map_map]
    congr 1
    funext frame
    exact relocate_relocate frameLayout hOverwrite frame
  refine ⟨parked, renumbered, ?_, ?_, ?_, hFinal⟩
  · intro updates hPerm
    exact FrameTable.setSequenceIndexes_of_perm hPerm
      (suffixPark_clear table projectId fromTs hPerm) hPark
  · intro updates hPerm
    exact FrameTable.setSequenceIndexes_of_perm hPerm (suffixAssign_clear hPark hPerm) hAssign
  · unfold resequenceProjectFrom
    by_cases hEmpty : suffixOrder table projectId fromTs = []
    · -- With an empty suffix neither statement has a row to write.
      have hNone : suffixRows table projectId fromTs = [] := by
        rw [← List.length_eq_zero_iff, ← length_suffixOrder, hEmpty]
        rfl
      have hSame : renumbered = table := by
        refine FrameTable.ext ?_ hFinal.lastId
        rw [hFinal.rows, suffixMoves, hEmpty]
        exact List.map_id _
      rw [if_pos hEmpty, hSame, hNone]
      rfl
    · rw [if_neg hEmpty, length_suffixOrder, hParked, Option.bind_some, hRenumbered]
      rfl

end TimelapseManager.Storage
