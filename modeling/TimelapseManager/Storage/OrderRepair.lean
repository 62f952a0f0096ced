import TimelapseManager.Storage.Resequence

/-!
# The detector and the repair fit together

`earliest_out_of_order_timestamp` looks at adjacent rows only, and `resequence_project_from` moves
only the rows at or after its bound.  What makes the pair correct is that the detector's answer lies
at or below *every* row of *every* inverted pair, so that a bound at or below it leaves no inverted
pair among the rows that stay (`inverted_isFrom`).
-/

namespace TimelapseManager.Storage

open SlotTable Inversions

/-- Two rows of a project, `first` before `second` in index order, of which the
second is timed and belongs before the first. -/
structure Inverted (table : FrameTable) (projectId : Nat) (first second : Frame) :
    Prop where
  firstRow : first ∈ table.rows
  secondRow : second ∈ table.rows
  firstProject : first.projectId = projectId
  secondProject : second.projectId = projectId
  before : first.sequenceIndex < second.sequenceIndex
  timed : second.captureTimestamp ≠ none
  keyLt : second.sortKey < first.sortKey

/-! ## What the detector knows -/

theorem breaksOrder_iff {previous current : Frame} :
    breaksOrder previous current = true ↔
      current.captureTimestamp ≠ none ∧ current.sortKey < previous.sortKey := by
  cases hCurrent : current.captureTimestamp with
  | none => simp [breaksOrder, hCurrent]
  | some timestamp =>
    have hTimed : current.captureTimestamp ≠ none := by simp [hCurrent]
    cases hPrevious : previous.captureTimestamp with
    | none =>
      have hLt := Frame.sortKey_lt_of_timed hTimed hPrevious
      simp [breaksOrder, hCurrent, hPrevious, hLt]
    | some earlier =>
      rw [Frame.sortKey_lt_iff_of_timed hCurrent hPrevious]
      simp [breaksOrder, hCurrent, hPrevious]

variable {projectId : Nat} {table : FrameTable} {first second : Frame} {fromTs : Option Int}

@[simp] theorem mem_indexWalk {frame : Frame} :
    frame ∈ indexWalk table projectId ↔ frame ∈ table.rows ∧ frame.projectId = projectId := by
  rw [indexWalk, mem_byIndex, FrameTable.mem_inProject]

theorem indexWalk_sorted (table : FrameTable) (projectId : Nat) :
    Ascending (indexWalk table projectId) :=
  byIndex_sorted table projectId (fun _ => FrameTable.mem_inProject.mp)
    (table.inProject_nodup projectId)

theorem inverted_of_mem_flagged {timestamp : Int}
    (hFlagged : timestamp ∈ flaggedTimestamps table projectId) :
    ∃ first second, Inverted table projectId first second ∧
      second.captureTimestamp = some timestamp := by
  obtain ⟨⟨previous, current⟩, hPair, hEmit⟩ := List.mem_filterMap.mp hFlagged
  obtain ⟨hPrevious, hCurrent, hBefore⟩ :=
    adjacent_pairwise (indexWalk_sorted table projectId) hPair
  by_cases hBreaks : breaksOrder previous current = true
  · rw [if_pos hBreaks] at hEmit
    obtain ⟨hTimed, hKey⟩ := breaksOrder_iff.mp hBreaks
    obtain ⟨hPreviousRow, hPreviousProject⟩ := mem_indexWalk.mp hPrevious
    obtain ⟨hCurrentRow, hCurrentProject⟩ := mem_indexWalk.mp hCurrent
    exact ⟨previous, current,
      ⟨hPreviousRow, hCurrentRow, hPreviousProject, hCurrentProject, hBefore, hTimed, hKey⟩,
      hEmit⟩
  · rw [if_neg hBreaks] at hEmit
    cases hEmit

theorem exists_flagged_of_inverted (hInverted : Inverted table projectId first second) :
    ∃ timestamp ∈ flaggedTimestamps table projectId, second.isAtOrAfter timestamp = true := by
  obtain ⟨pair, hPair, hDescent, hBelow⟩ :=
    exists_descent_le Frame.sortKey (fun _ _ hLt => Nat.lt_asymm hLt)
      (indexWalk_sorted table projectId)
      (mem_indexWalk.mpr ⟨hInverted.firstRow, hInverted.firstProject⟩)
      (mem_indexWalk.mpr ⟨hInverted.secondRow, hInverted.secondProject⟩)
      hInverted.before hInverted.keyLt
  -- The descent ends at or below a timed row, so its own lower row is timed.
  have hTimed : pair.2.captureTimestamp ≠ none := by
    intro hNone
    exact absurd (Frame.sortKey_lt_of_timed hInverted.timed hNone) (not_lt_of_ge hBelow)
  obtain ⟨timestamp, hTimestamp⟩ := Option.ne_none_iff_exists'.mp hTimed
  obtain ⟨later, hLater⟩ := Option.ne_none_iff_exists'.mp hInverted.timed
  refine ⟨timestamp, ?_, ?_⟩
  · refine List.mem_filterMap.mpr ⟨pair, hPair, ?_⟩
    rw [if_pos (breaksOrder_iff.mpr ⟨hTimed, hDescent⟩)]
    exact hTimestamp
  · have hNotLt := not_lt_of_ge hBelow
    rw [Frame.sortKey_lt_iff_of_timed hLater hTimestamp] at hNotLt
    simp only [Frame.isAtOrAfter, hLater, decide_eq_true_eq]
    exact le_of_not_gt fun hLt => hNotLt (Or.inl hLt)

theorem earliest_none_iff (table : FrameTable) (projectId : Nat) :
    earliestOutOfOrderTimestamp table projectId = none ↔
      ∀ first second, ¬ Inverted table projectId first second := by
  rw [earliestOutOfOrderTimestamp, List.min?_eq_none_iff]
  constructor
  · intro hEmpty first second hInverted
    obtain ⟨timestamp, hMem, _⟩ := exists_flagged_of_inverted hInverted
    rw [hEmpty] at hMem
    cases hMem
  · intro hNone
    refine List.eq_nil_iff_forall_not_mem.mpr fun timestamp hMem => ?_
    obtain ⟨first, second, hInverted, _⟩ := inverted_of_mem_flagged hMem
    exact hNone first second hInverted

theorem Frame.isAtOrAfter_of_sortKey_lt {low high : Frame} {bound : Int}
    (hLow : low.isAtOrAfter bound = true) (hLt : low.sortKey < high.sortKey)
    (hTimed : low.captureTimestamp ≠ none) : high.isAtOrAfter bound = true := by
  obtain ⟨earlier, hEarlier⟩ := Option.ne_none_iff_exists'.mp hTimed
  cases hHigh : high.captureTimestamp with
  | none => simp [Frame.isAtOrAfter, hHigh]
  | some later =>
    rw [Frame.sortKey_lt_iff_of_timed hEarlier hHigh] at hLt
    simp only [Frame.isAtOrAfter, hEarlier, hHigh, decide_eq_true_eq] at hLow ⊢
    omega

theorem inverted_isAtOrAfter {earliest : Int}
    (hEarliest : earliestOutOfOrderTimestamp table projectId = some earliest)
    (hInverted : Inverted table projectId first second) :
    first.isAtOrAfter earliest = true ∧ second.isAtOrAfter earliest = true := by
  rw [earliestOutOfOrderTimestamp, List.min?_eq_some_iff] at hEarliest
  obtain ⟨timestamp, hMem, hSecond⟩ := exists_flagged_of_inverted hInverted
  have hLe := hEarliest.2 timestamp hMem
  obtain ⟨later, hLater⟩ := Option.ne_none_iff_exists'.mp hInverted.timed
  have hBound : second.isAtOrAfter earliest = true := by
    simp only [Frame.isAtOrAfter, hLater, decide_eq_true_eq] at hSecond ⊢
    omega
  exact ⟨Frame.isAtOrAfter_of_sortKey_lt hBound hInverted.keyLt hInverted.timed, hBound⟩

/-! ## The bound covers every inverted pair -/

/-- A bound that the detector allows: at or below its answer, or anything when
it gave none.  `None` stands for the start of the project. -/
def AtOrBelowDetector (table : FrameTable) (projectId : Nat) (fromTs : Option Int) : Prop :=
  ∀ bound ∈ fromTs, ∀ earliest ∈ earliestOutOfOrderTimestamp table projectId, bound ≤ earliest

theorem inverted_isFrom (hBound : AtOrBelowDetector table projectId fromTs)
    (hInverted : Inverted table projectId first second) : second.isFrom fromTs = true := by
  cases fromTs with
  | none => rfl
  | some bound =>
    obtain ⟨earliest, hEarliest⟩ : ∃ earliest,
        earliestOutOfOrderTimestamp table projectId = some earliest := by
      refine Option.ne_none_iff_exists'.mp fun hNone => ?_
      exact (earliest_none_iff table projectId).mp hNone first second hInverted
    have hLe := hBound bound rfl earliest hEarliest
    have hSecond := (inverted_isAtOrAfter hEarliest hInverted).2
    obtain ⟨later, hLater⟩ := Option.ne_none_iff_exists'.mp hInverted.timed
    simp only [Frame.isFrom, Frame.isAtOrAfter, hLater, decide_eq_true_eq] at hSecond ⊢
    omega

theorem Frame.timed_of_isFrom_eq_false {frame : Frame} (hEarly : frame.isFrom fromTs = false) :
    frame.captureTimestamp ≠ none := by
  intro hNone
  cases fromTs with
  | none => cases hEarly
  | some bound => simp [Frame.isFrom, Frame.isAtOrAfter, hNone] at hEarly

theorem Frame.sortKey_lt_of_isFrom {early late : Frame} (hEarly : early.isFrom fromTs = false)
    (hLate : late.isFrom fromTs = true) : early.sortKey < late.sortKey := by
  have hTimed := Frame.timed_of_isFrom_eq_false hEarly
  obtain ⟨timestamp, hTimestamp⟩ := Option.ne_none_iff_exists'.mp hTimed
  cases hOther : late.captureTimestamp with
  | none => exact Frame.sortKey_lt_of_timed hTimed hOther
  | some other =>
    cases fromTs with
    | none => cases hEarly
    | some bound =>
      rw [Frame.sortKey_lt_iff_of_timed hTimestamp hOther]
      simp only [Frame.isFrom, Frame.isAtOrAfter, hTimestamp, hOther,
        decide_eq_true_eq, decide_eq_false_iff_not] at hEarly hLate
      omega

/-! ## Where the repair puts each row -/

theorem renumbered_row {renumbered : FrameTable} {moved : Frame}
    (hRows : table.Moved (suffixMoves table projectId fromTs) renumbered) (hMoved : moved ∈ renumbered.rows) (hProject : moved.projectId = projectId) :
    (moved ∈ table.rows ∧ moved.isFrom fromTs = false) ∨
      ∃ (position : Nat) (frame : Frame),
        (chronological (suffixRows table projectId fromTs))[position]? = some frame ∧
        moved = { frame with sequenceIndex := suffixStart table projectId fromTs + position } := by
  obtain ⟨frame, hFrame, rfl⟩ := hRows.mem hMoved
  by_cases hId : frame.id ∈ suffixOrder table projectId fromTs
  · right
    have hSuffix := mem_suffixRows_of_id hFrame hId
    obtain ⟨position, hPosition⟩ := List.mem_iff_getElem?.mp (mem_chronological.mpr hSuffix)
    refine ⟨position, frame, hPosition, ?_⟩
    refine relocate_zipIdx (suffixOrder_nodup table projectId fromTs) ?_
    rw [suffixOrder, List.getElem?_map, hPosition, Option.map_some]
  · left
    rw [relocate_zipIdx_of_not_mem hId] at hProject ⊢
    refine ⟨hFrame, ?_⟩
    cases hFrom : frame.isFrom fromTs with
    | false => rfl
    | true =>
      exact absurd (mem_suffixOrder.mpr
        ⟨frame, mem_suffixRows.mpr ⟨hFrame, hProject, hFrom⟩, rfl⟩) hId

theorem sortKey_le_of_index_lt {renumbered : FrameTable}
    (hBound : AtOrBelowDetector table projectId fromTs)
    (hRows : table.Moved (suffixMoves table projectId fromTs) renumbered)
    (hFirst : first ∈ renumbered.rows) (hSecond : second ∈ renumbered.rows)
    (hFirstProject : first.projectId = projectId) (hSecondProject : second.projectId = projectId)
    (hIndex : first.sequenceIndex < second.sequenceIndex) : first.sortKey ≤ second.sortKey := by
  rcases renumbered_row hRows hFirst hFirstProject with
    ⟨hFirstRow, hFirstFrom⟩ | ⟨firstPosition, firstFrame, hFirstAt, hFirstEq⟩
  · rcases renumbered_row hRows hSecond hSecondProject with
      ⟨hSecondRow, hSecondFrom⟩ | ⟨secondPosition, secondFrame, hSecondAt, hSecondEq⟩
    · -- Two rows that stay: a wrong order would be an inverted pair below the bound.
      refine le_of_not_gt fun hKey => ?_
      have hTimed := Frame.timed_of_isFrom_eq_false hSecondFrom
      have hFrom := inverted_isFrom hBound
        ⟨hFirstRow, hSecondRow, hFirstProject, hSecondProject, hIndex, hTimed, hKey⟩
      rw [hSecondFrom] at hFrom
      cases hFrom
    · have hSuffix := mem_chronological.mp (List.mem_of_getElem? hSecondAt)
      rw [hSecondEq]
      exact (Frame.sortKey_lt_of_isFrom hFirstFrom (mem_suffixRows.mp hSuffix).2.2).le
  · rcases renumbered_row hRows hSecond hSecondProject with
      ⟨hSecondRow, hSecondFrom⟩ | ⟨secondPosition, secondFrame, hSecondAt, hSecondEq⟩
    · -- A renumbered row never ends in front of one that stays.
      have hBelow := lt_suffixStart hSecondRow hSecondProject hSecondFrom
      rw [hFirstEq] at hIndex
      simp only at hIndex
      omega
    · rw [hFirstEq, hSecondEq] at hIndex ⊢
      simp only [Nat.add_lt_add_iff_left] at hIndex
      show firstFrame.sortKey ≤ secondFrame.sortKey
      obtain ⟨hFirstLt, rfl⟩ := List.getElem?_eq_some_iff.mp hFirstAt
      obtain ⟨hSecondLt, rfl⟩ := List.getElem?_eq_some_iff.mp hSecondAt
      exact List.pairwise_iff_getElem.mp (chronological_sorted _) _ _ hFirstLt hSecondLt hIndex

/-- **Detector and repair.**  The detector is silent exactly when no pair is
inverted, and its answer bounds both rows of every inverted pair.  From every
bound it allows, both statements of the repair go through whatever the order of
their row updates; the rows before the bound and the other projects stay as they
are, no inverted pair is left, and the rows without a timestamp come last, in id
order. -/
theorem resequenceProjectFrom_repairs_order (table : FrameTable) (projectId : Nat) :
    (earliestOutOfOrderTimestamp table projectId = none ↔
      ∀ first second, ¬ Inverted table projectId first second) ∧
    (∀ earliest, earliestOutOfOrderTimestamp table projectId = some earliest →
      ∀ first second, Inverted table projectId first second →
        first.isAtOrAfter earliest = true ∧ second.isAtOrAfter earliest = true) ∧
    ∀ fromTs, AtOrBelowDetector table projectId fromTs →
      ∃ parked renumbered : FrameTable,
        (∀ updates, updates.Perm (parkAssignments (suffixRows table projectId fromTs)
            (parkOffset table projectId (suffixRows table projectId fromTs).length)) →
          table.setSequenceIndexes updates = some parked) ∧
        (∀ updates, updates.Perm ((suffixOrder table projectId fromTs).zipIdx
            (suffixStart table projectId fromTs)) →
          parked.setSequenceIndexes updates = some renumbered) ∧
        resequenceProjectFrom table projectId fromTs =
          some (renumbered, (suffixRows table projectId fromTs).length) ∧
        (∀ frame ∈ table.rows,
          (frame.projectId ≠ projectId ∨ ∃ bound ∈ fromTs, frame.isBefore bound = true) →
            frame ∈ renumbered.rows) ∧
        renumbered.rows.map Frame.id = table.rows.map Frame.id ∧
        (∀ first second, ¬ Inverted renumbered projectId first second) ∧
        (∀ timed ∈ renumbered.rows, ∀ untimed ∈ renumbered.rows,
          timed.projectId = projectId → untimed.projectId = projectId →
          timed.captureTimestamp ≠ none → untimed.captureTimestamp = none →
            timed.sequenceIndex < untimed.sequenceIndex) ∧
        (∀ first ∈ renumbered.rows, ∀ second ∈ renumbered.rows,
          first.projectId = projectId → second.projectId = projectId →
          first.captureTimestamp = none → second.captureTimestamp = none →
            first.id < second.id → first.sequenceIndex < second.sequenceIndex) := by
  refine ⟨earliest_none_iff table projectId,
    fun earliest hEarliest first second => inverted_isAtOrAfter hEarliest, ?_⟩
  intro fromTs hBound
  obtain ⟨parked, renumbered, hPark, hAssign, hResult, hRows⟩ :=
    resequenceProjectFrom_spec table projectId fromTs
  -- After the repair, the index order is the order of the sort keys.
  have hOrder : ∀ first ∈ renumbered.rows, ∀ second ∈ renumbered.rows,
      first.projectId = projectId → second.projectId = projectId →
      second.sortKey < first.sortKey → second.sequenceIndex < first.sequenceIndex := by
    intro first hFirst second hSecond hFirstProject hSecondProject hKey
    rcases lt_trichotomy first.sequenceIndex second.sequenceIndex with hLt | hEq | hGt
    · exact absurd (sortKey_le_of_index_lt hBound hRows hFirst hSecond hFirstProject
        hSecondProject hLt) (not_le_of_gt hKey)
    · rw [renumbered.eq_of_index_eq hFirst hSecond
        (hFirstProject.trans hSecondProject.symm) hEq] at hKey
      exact absurd hKey (lt_irrefl _)
    · exact hGt
  refine ⟨parked, renumbered, hPark, hAssign, hResult, ?_, ?_, ?_, ?_, ?_⟩
  · -- A row outside the suffix is not assigned an index.
    intro frame hFrame hOutside
    have hId : frame.id ∉ suffixOrder table projectId fromTs := by
      intro hId
      obtain ⟨_, hProject, hFrom⟩ := mem_suffixRows.mp (mem_suffixRows_of_id hFrame hId)
      rcases hOutside with hOther | ⟨bound, rfl, hEarly⟩
      · exact hOther hProject
      · rw [Frame.isBefore_eq_not, show frame.isAtOrAfter bound = true from hFrom] at hEarly
        cases hEarly
    rw [hRows.rows]
    exact List.mem_map.mpr ⟨frame, hFrame, relocate_zipIdx_of_not_mem hId⟩
  · rw [hRows.rows, List.map_map]
    exact List.map_congr_left fun frame _ => relocate_id _ frame
  · intro first second hInverted
    have hIndex := hOrder first hInverted.firstRow second hInverted.secondRow
      hInverted.firstProject hInverted.secondProject hInverted.keyLt
    exact absurd hInverted.before (Nat.lt_asymm hIndex)
  · intro timed hTimedRow untimed hUntimedRow hTimedProject hUntimedProject hTimed hUntimed
    exact hOrder untimed hUntimedRow timed hTimedRow hUntimedProject hTimedProject
      (Frame.sortKey_lt_of_timed hTimed hUntimed)
  · intro first hFirst second hSecond hFirstProject hSecondProject hFirstNone hSecondNone hId
    exact hOrder second hSecond first hFirst hSecondProject hFirstProject
      ((Frame.sortKey_lt_iff_of_untimed hFirstNone hSecondNone).mpr hId)

/-- Four rows of one project, the third captured before the second, the second
without a timestamp. -/
def shuffledTable : FrameTable where
  rows := [⟨1, 7, 1, some 10⟩, ⟨2, 7, 2, none⟩, ⟨3, 7, 3, some 5⟩, ⟨4, 7, 6, some 20⟩]
  lastId := 4
  distinct := ⟨by decide, by decide⟩
  idsLe := by decide

/-- The detector answers `5` there, and the repair from `5` ends with the rows
`3, 1, 4, 2`. -/
theorem resequenceProjectFrom_repairs_shuffled :
    earliestOutOfOrderTimestamp shuffledTable 7 = some 5 ∧
      AtOrBelowDetector shuffledTable 7 (some 5) ∧
      ∃ renumbered, resequenceProjectFrom shuffledTable 7 (some 5) = some (renumbered, 4) ∧
        ∀ first second, ¬ Inverted renumbered 7 first second := by
  have hEarliest : earliestOutOfOrderTimestamp shuffledTable 7 = some 5 := by decide
  have hBound : AtOrBelowDetector shuffledTable 7 (some 5) := by
    intro bound hFrom earliest hMem
    rw [hEarliest] at hMem
    cases hFrom
    cases hMem
    exact le_refl _
  obtain ⟨_, renumbered, _, _, hResult, _, _, hOrdered, _⟩ :=
    (resequenceProjectFrom_repairs_order shuffledTable 7).2.2 (some 5) hBound
  exact ⟨hEarliest, hBound, renumbered, hResult, hOrdered⟩

/-- Whatever ids an import reports, its renumber succeeds and the detector then flags no row. -/
theorem resequenceAfterImport_orders (table : FrameTable) (projectId : Nat)
    (importedIds : List Nat) :
    ∃ next count, resequenceAfterImport table projectId importedIds = some (next, count) ∧
      earliestOutOfOrderTimestamp next projectId = none := by
  unfold resequenceAfterImport
  cases hBound : renumberBound table projectId importedIds with
  | none =>
    have hNone := List.filterMap_eq_nil_iff.mp (List.min?_eq_none_iff.mp hBound)
    exact ⟨table, 0, rfl, hNone _ (List.mem_cons_of_mem _ List.mem_cons_self)⟩
  | some bound =>
    have hBelow : AtOrBelowDetector table projectId (some bound) := by
      rintro _ ⟨⟩ earliest hEarliest
      refine (List.min?_eq_some_iff.mp hBound).2 earliest
        (List.mem_filterMap.mpr ⟨_, ?_, hEarliest⟩)
      exact List.mem_cons_of_mem _ List.mem_cons_self
    obtain ⟨_, next, _, _, hResult, hRows⟩ :=
      resequenceProjectFrom_spec table projectId (some bound)
    refine ⟨next, _, hResult, (earliest_none_iff next projectId).mpr ?_⟩
    intro first second hPair
    exact not_lt_of_ge (sortKey_le_of_index_lt hBelow hRows hPair.firstRow hPair.secondRow
      hPair.firstProject hPair.secondProject hPair.before) hPair.keyLt

end TimelapseManager.Storage
