import TimelapseManager.Storage.RenumberInvariant

/-!
# Runs of a chunked renumber among captures and deletions

Each transaction of the run, each capture and each permanent deletion keeps the invariant `Sound`,
with one exception that is a side condition of the step (`CaptureFindsParked`): a capture in the
park phase must not find the project empty above its old maximum.  From every sound state the run
reaches its end by itself (`exists_finished`).
-/

namespace TimelapseManager.Storage

open SlotTable Runs

/-! ## One transaction of the run -/

variable {importedIds : List Nat} {row : Frame} {frameId projectId : Nat}

section Steps

variable {job : Renumber} {table : FrameTable} {chunk : Nat}

theorem parkChunk_cases {done todo : List Frame} (hTodo : todo ≠ [])
    (hInv : ParkingInv job table done todo) :
    let plan := job.plan
    (∃ next : FrameTable,
      parkChunk chunk table plan todo = ⟨next, .assigning plan plan.order plan.start⟩ ∧
      MovesPlanned job.base table next ∧ AssigningInv job next [] plan.order) ∨
    (todo.drop chunk ≠ [] ∧ ∃ next : FrameTable,
      parkChunk chunk table plan todo = ⟨next, .parking plan (todo.drop chunk)⟩ ∧
      MovesPlanned job.base table next ∧
      ParkingInv job next (done ++ todo.take chunk) (todo.drop chunk)) := by
  dsimp only
  obtain ⟨next, hNext, hMoves, hNextInv⟩ := parkChunk_spec hInv
  unfold parkChunk
  rw [hNext]
  by_cases hRest : todo.drop chunk = []
  · left
    refine ⟨next, by rw [if_pos hRest]; rfl, hMoves, ?_⟩
    rw [hRest] at hNextInv
    refine hNextInv.toAssigning ?_
    -- A capture of the park phase stands above what the last waiting row became.
    obtain ⟨waiting, hWaiting⟩ := List.exists_mem_of_ne_nil todo hTodo
    rw [hMoves.captures_eq]
    intro row hRow
    have hAbove := hInv.above row hRow waiting hWaiting
    omega
  · right
    exact ⟨hRest, next, by rw [if_neg hRest]; rfl, hMoves, hNextInv⟩

theorem assignChunk_cases {done todo : List Nat} (hInv : AssigningInv job table done todo) :
    let plan := job.plan
    (∃ next : FrameTable,
      assignChunk chunk table plan todo (plan.start + done.length) =
        ⟨next, .compacting plan.rows.length plan.stop⟩ ∧
      MovesPlanned job.base table next ∧ Renumbered job next) ∨
    (todo.drop chunk ≠ [] ∧ ∃ next : FrameTable,
      assignChunk chunk table plan todo (plan.start + done.length) =
        ⟨next, .assigning plan (todo.drop chunk)
          (plan.start + (done ++ todo.take chunk).length)⟩ ∧
      MovesPlanned job.base table next ∧
      AssigningInv job next (done ++ todo.take chunk) (todo.drop chunk)) := by
  dsimp only
  obtain ⟨next, hNext, hMoves, hNextInv⟩ := assignChunk_spec hInv
  unfold assignChunk
  rw [hNext, length_order]
  by_cases hRest : todo.drop chunk = []
  · left
    refine ⟨next, by rw [if_pos hRest]; rfl, hMoves, ?_⟩
    rw [hRest] at hNextInv
    exact hNextInv.renumbered
  · right
    refine ⟨hRest, next, ?_, hMoves, hNextInv⟩
    have hFull : (todo.take chunk).length = chunk := by
      rw [List.length_take]
      have hLt : chunk < todo.length := by
        by_contra hGe
        exact hRest (List.drop_eq_nil_of_le (Nat.le_of_not_lt hGe))
      omega
    rw [if_neg hRest, List.length_append, hFull, ← Nat.add_assoc]
    rfl

theorem compactChunk_cases (count : Nat) {next : Nat} (hInv : Renumbered job table)
    (hNext : job.plan.stop ≤ next) :
    ∃ packed, Renumbered job packed ∧ table.Moved (compactMoves table job.projectId next) packed ∧
      (((compactTail table job.projectId next).length < renumberChunkRows ∧
          compactChunk job.projectId table count next = ⟨packed, .finished count⟩) ∨
        ((compactTail table job.projectId next).length = renumberChunkRows ∧
          compactChunk job.projectId table count next =
            ⟨packed, .compacting count (next + renumberChunkRows)⟩)) := by
  obtain ⟨packed, hPacked, hMoved, hPackedInv⟩ := compactChunk_spec hInv hNext
  refine ⟨packed, hPackedInv, hMoved, ?_⟩
  unfold compactChunk
  simp only [hPacked, commit]
  by_cases hShort : (compactTail table job.projectId next).length < renumberChunkRows
  · left
    exact ⟨hShort, by rw [if_pos hShort]⟩
  · right
    have hFull : (compactTail table job.projectId next).length = renumberChunkRows :=
      Nat.le_antisymm (List.length_take_le _ _) (Nat.le_of_not_lt hShort)
    exact ⟨hFull, by rw [if_neg hShort, hFull]⟩

theorem length_parking : job.plan.parking.length = job.suffix.length :=
  ((parking_perm _).trans (chronological_perm _)).length_eq

theorem parking_ne_nil (hLong : ¬job.suffix.length ≤ chunk) : job.plan.parking ≠ [] := by
  intro hNil
  apply hLong
  rw [← length_parking, hNil]
  exact Nat.zero_le _

theorem ParkingInv.order_ne_nil {done todo : List Frame}
    (hInv : ParkingInv job table done todo) (hRows : done ++ todo ≠ []) :
    job.plan.order ≠ [] := by
  intro hNil
  have hZero := congrArg List.length hNil
  rw [length_order, ← (parking_perm _).length_eq, hInv.split] at hZero
  exact hRows (List.length_eq_zero_iff.mp hZero)

theorem planChunk_sound (hChunk : 0 < chunk)
    (hBound : renumberBound job.base job.projectId importedIds = some job.bound) :
    Sound job (planChunk job.projectId importedIds chunk job.base) := by
  unfold planChunk
  rw [hBound]
  simp only
  by_cases hSmall : job.suffix.length ≤ chunk
  · obtain ⟨_, renumbered, _, _, hResult, hMoved⟩ :=
      resequenceProjectFrom_spec job.base job.projectId (some job.bound)
    rw [if_pos hSmall, hResult]
    refine ⟨by simp [planFor], ?_⟩
    have hPlaced := (Placed.refl job.base).update hMoved
    rw [List.append_nil] at hPlaced
    exact hPlaced
  · rw [if_neg hSmall]
    have hInv : ParkingInv job job.base [] job.plan.parking :=
      ⟨rfl, Placed.refl job.base,
        fun row hRow => absurd (job.base.idsLe row (mem_captures.mp hRow).1)
          (Nat.not_le_of_lt (mem_captures.mp hRow).2.1)⟩
    rcases parkChunk_cases (parking_ne_nil hSmall) hInv with ⟨next, hNext, _, hNextInv⟩ |
      ⟨hRest, next, hNext, _, hNextInv⟩
    · rw [hNext]
      exact ⟨rfl, hInv.order_ne_nil (parking_ne_nil hSmall), [], rfl, hNextInv⟩
    · rw [hNext]
      refine ⟨rfl, hRest, _, ?_, hNextInv⟩
      rw [List.nil_append, Ne, List.take_eq_nil_iff, not_or]
      exact ⟨hChunk.ne', parking_ne_nil hSmall⟩

variable {state : RenumberState}

theorem renumberStep_sound (hSound : Sound job state) :
    Sound job (renumberStep job.projectId importedIds chunk state) := by
  obtain ⟨table, phase⟩ := state
  cases phase with
  | planning => exact hSound.elim
  | parking plan todo =>
    obtain ⟨rfl, hTodo, done, hDone, hInv⟩ := hSound
    show Sound job (parkChunk chunk table _ todo)
    rcases parkChunk_cases hTodo hInv with ⟨next, hNext, _, hNextInv⟩ |
      ⟨hRest, next, hNext, _, hNextInv⟩
    · rw [hNext]
      exact ⟨rfl, hInv.order_ne_nil (List.append_ne_nil_of_left_ne_nil hDone _), [], rfl, hNextInv⟩
    · rw [hNext]
      exact ⟨rfl, hRest, _, List.append_ne_nil_of_left_ne_nil hDone _, hNextInv⟩
  | assigning plan todo next =>
    obtain ⟨rfl, hTodo, done, rfl, hInv⟩ := hSound
    show Sound job (assignChunk chunk table _ todo _)
    rcases assignChunk_cases hInv with ⟨after, hAfter, _, hAfterInv⟩ |
      ⟨hRest, after, hAfter, _, hAfterInv⟩
    · rw [hAfter]
      exact ⟨rfl, Nat.le_refl _, hAfterInv⟩
    · rw [hAfter]
      exact ⟨rfl, hRest, _, rfl, hAfterInv⟩
  | compacting count next =>
    obtain ⟨hCount, hNext, hInv⟩ := hSound
    show Sound job (compactChunk job.projectId table count next)
    obtain ⟨packed, hPacked, _, ⟨_, hResult⟩ | ⟨_, hResult⟩⟩ :=
      compactChunk_cases count hInv hNext
    · rw [hResult]
      exact ⟨hCount, hPacked⟩
    · rw [hResult]
      exact ⟨hCount, Nat.le_add_right_of_le hNext, hPacked⟩
  | finished count => exact hSound
  | aborted => exact hSound.elim

/-! ## The other writers -/

/-- A capture of the project that commits in the park phase finds some row above
every index the project had at the plan.  A parked frame is such a row, and so
is a capture that followed one; the condition fails only when all of them have
been permanently deleted. -/
def CaptureFindsParked (base : FrameTable) (projectId : Nat) (state : RenumberState)
    (action : Action) : Prop :=
  match state.phase, action with
  | .parking _ _, .write target _ =>
    target = projectId → ∃ row ∈ state.table.rows, row.projectId = projectId ∧
      (maxSequenceIndex (base.inProject projectId)).getD 0 < row.sequenceIndex
  | _, _ => True

theorem ParkingInv.above_of_high {done todo : List Frame}
    (hInv : ParkingInv job table done todo) (hRow : row ∈ table.rows)
    (hProject : row.projectId = job.projectId)
    (hHigh : (maxSequenceIndex (job.base.inProject job.projectId)).getD 0 < row.sequenceIndex)
    {waiting : Frame} (hWaiting : waiting ∈ todo) :
    waiting.sequenceIndex + job.plan.offset < row.sequenceIndex := by
  by_cases hOld : row.id ≤ job.base.lastId
  · obtain ⟨frame, hFrame, hFrameProject, rfl⟩ := hInv.placed.originIn hRow hOld hProject
    by_cases hDone : frame ∈ done
    · have hSorted := parking_sorted job
      rw [hInv.split] at hSorted
      have hLt := (List.pairwise_append.mp hSorted).2.2 frame hDone waiting hWaiting
      rw [parked_index hInv.split hDone]
      exact Nat.add_lt_add_right hLt _
    · rw [unparked_index hInv.split hFrame hDone] at hHigh
      have hLe := le_maxSequenceIndex (FrameTable.mem_inProject.mpr ⟨hFrame, hFrameProject⟩)
      omega
  · exact hInv.above row (mem_captures.mpr ⟨hRow, Nat.lt_of_not_le hOld, hProject⟩) waiting hWaiting

theorem write_sound {target : Nat} {capturedAt : Int} (hSound : Sound job state)
    (hGuard : CaptureFindsParked job.base job.projectId state (.write target capturedAt)) :
    Sound job { state with table := state.table.write target capturedAt } := by
  obtain ⟨table, phase⟩ := state
  cases phase with
  | planning => exact hSound.elim
  | parking =>
    obtain ⟨rfl, hTodo, done, hDone, hInv⟩ := hSound
    refine ⟨rfl, hTodo, done, hDone, hInv.split, hInv.placed.write target capturedAt, ?_⟩
    intro row hRow waiting hWaiting
    obtain ⟨hRow, hNew, hProject⟩ := mem_captures.mp hRow
    rcases List.mem_append.mp hRow with hRow | hCaptured
    · exact hInv.above row (mem_captures.mpr ⟨hRow, hNew, hProject⟩) waiting hWaiting
    · rw [List.mem_singleton.mp hCaptured] at hProject ⊢
      -- The capture goes above a parked frame, and so above what still has to be parked.
      obtain ⟨high, hHighRow, hHighProject, hHigh⟩ := hGuard hProject
      have hAbove := hInv.above_of_high hHighRow hHighProject hHigh hWaiting
      have hLt := FrameTable.lt_nextSequenceIndex hHighRow (hHighProject.trans hProject.symm)
      exact hAbove.trans hLt
  | assigning =>
    obtain ⟨rfl, hTodo, done, hNext, hInv⟩ := hSound
    refine ⟨rfl, hTodo, done, hNext, hInv.split, hInv.placed.write target capturedAt, ?_⟩
    rintro ⟨live, hLive, hLiveTodo⟩ row hRow
    obtain ⟨hRow, hNew, hProject⟩ := mem_captures.mp hRow
    have hLiveOrder := hInv.mem_order hLiveTodo
    have hLiveOld := order_le_lastId hLiveOrder
    have hLiveRow : live ∈ table.rows := by
      rcases List.mem_append.mp hLive with hOld | hCaptured
      · exact hOld
      · rw [List.mem_singleton.mp hCaptured] at hLiveOld
        have hLast : job.base.lastId ≤ table.lastId := hInv.placed.lastIdLe
        simp only [FrameTable.capturedFrame] at hLiveOld
        omega
    rcases List.mem_append.mp hRow with hRow | hCaptured
    · exact hInv.above ⟨live, hLiveRow, hLiveTodo⟩ row (mem_captures.mpr ⟨hRow, hNew, hProject⟩)
    · -- The capture lands above the live row, which is still parked.
      have hLiveProject := project_of_mem_order hInv.placed hLiveRow hLiveOrder
      rw [List.mem_singleton.mp hCaptured] at hProject ⊢
      have hLt := FrameTable.lt_nextSequenceIndex hLiveRow (hLiveProject.trans hProject.symm)
      obtain ⟨frame, hFrame, hFrameProject, rfl⟩ :=
        hInv.placed.originIn hLiveRow hLiveOld hLiveProject
      rw [relocate_id] at hLiveTodo
      have hStop := ((assigning_index hInv.split hFrame hFrameProject).resolve_left
        fun hLow => hLow.1 hLiveTodo).2
      exact (hStop.trans_lt hLt).le
  | compacting =>
    obtain ⟨hCount, hNext, hInv⟩ := hSound
    exact ⟨hCount, hNext, hInv.write target capturedAt⟩
  | finished count => exact ⟨hSound.1, hSound.2.write target capturedAt⟩
  | aborted => exact hSound.elim

theorem mem_captures_of_delete
    (hRow : row ∈ captures job (table.permanentDelete frameId)) :
    row ∈ captures job table := by
  obtain ⟨hRow, hNew, hProject⟩ := mem_captures.mp hRow
  exact mem_captures.mpr ⟨List.mem_of_mem_filter hRow, hNew, hProject⟩

theorem delete_sound (hSound : Sound job state) :
    Sound job { state with table := state.table.permanentDelete frameId } := by
  obtain ⟨table, phase⟩ := state
  cases phase with
  | planning => exact hSound.elim
  | parking =>
    obtain ⟨hPlan, hTodo, done, hDone, hInv⟩ := hSound
    exact ⟨hPlan, hTodo, done, hDone, hInv.split, hInv.placed.permanentDelete frameId,
      fun row hRow => hInv.above row (mem_captures_of_delete hRow)⟩
  | assigning =>
    obtain ⟨hPlan, hTodo, done, hNext, hInv⟩ := hSound
    refine ⟨hPlan, hTodo, done, hNext, hInv.split, hInv.placed.permanentDelete frameId, ?_⟩
    rintro ⟨live, hLive, hLiveTodo⟩ row hRow
    exact hInv.above ⟨live, List.mem_of_mem_filter hLive, hLiveTodo⟩ row
      (mem_captures_of_delete hRow)
  | compacting =>
    obtain ⟨hCount, hNext, hInv⟩ := hSound
    exact ⟨hCount, hNext, hInv.permanentDelete frameId⟩
  | finished count => exact ⟨hSound.1, hSound.2.permanentDelete frameId⟩
  | aborted => exact hSound.elim

/-! ## Completion -/

/-- The run, left alone in `state`, returns. -/
def Finishes (projectId : Nat) (importedIds : List Nat) (chunk : Nat)
    (state : RenumberState) : Prop :=
  ∃ steps count, (iterateStep (renumberStep projectId importedIds chunk) steps state).phase =
    .finished count

theorem Finishes.of_step (hNext : Finishes projectId importedIds chunk
      (renumberStep projectId importedIds chunk state)) :
    Finishes projectId importedIds chunk state := by
  obtain ⟨steps, count, hFinished⟩ := hNext
  exact ⟨steps + 1, count, hFinished⟩

/-- What is still to do: the phases that are left, then the rows of this one. -/
def remaining (state : RenumberState) : Nat ×ₗ Nat :=
  match state.phase with
  | .parking _ todo => toLex (3, todo.length)
  | .assigning _ todo _ => toLex (2, todo.length)
  | .compacting _ next => toLex (1, (maxSequenceIndex state.table.rows).getD 0 + 1 - next)
  | _ => toLex (0, 0)

theorem remaining_lt (hChunk : 0 < chunk) (hSound : Sound job state)
    (hRuns : ∀ count, state.phase ≠ .finished count) :
    remaining (renumberStep job.projectId importedIds chunk state) < remaining state := by
  obtain ⟨table, phase⟩ := state
  cases phase with
  | planning | aborted => exact hSound.elim
  | parking plan todo =>
    obtain ⟨rfl, hTodo, done, _, hInv⟩ := hSound
    have hPositive := List.length_pos_of_ne_nil hTodo
    show remaining (parkChunk chunk table _ todo) < toLex (3, todo.length)
    rcases parkChunk_cases hTodo hInv with ⟨next, hNext, _⟩ | ⟨_, next, hNext, _⟩
    all_goals
      rw [hNext]
      simp only [remaining, Prod.Lex.toLex_lt_toLex, List.length_drop, true_and]
      omega
  | assigning plan todo next =>
    obtain ⟨rfl, hTodo, done, rfl, hInv⟩ := hSound
    have hPositive := List.length_pos_of_ne_nil hTodo
    show remaining (assignChunk chunk table _ todo _) < toLex (2, todo.length)
    rcases assignChunk_cases hInv with ⟨next, hNext, _⟩ | ⟨_, next, hNext, _⟩
    all_goals
      rw [hNext]
      simp only [remaining, Prod.Lex.toLex_lt_toLex, List.length_drop, true_and]
      omega
  | compacting count next =>
    obtain ⟨_, hNext, hInv⟩ := hSound
    show remaining (compactChunk job.projectId table count next) <
      toLex (1, (maxSequenceIndex table.rows).getD 0 + 1 - next)
    obtain ⟨packed, _, hMoves, ⟨_, hResult⟩ | ⟨hFull, hResult⟩⟩ :=
      compactChunk_cases count hInv hNext
    · rw [hResult]
      exact Prod.Lex.toLex_lt_toLex.mpr (Or.inl Nat.zero_lt_one)
    · -- A full pass read a row at or above `next`, and moved no row up.
      have hMax : (maxSequenceIndex packed.rows).getD 0 ≤ (maxSequenceIndex table.rows).getD 0 := by
        refine maxSequenceIndex_le fun moved hMoved => ?_
        obtain ⟨row, hRow, rfl⟩ := hMoves.mem hMoved
        exact (relocate_pack_le job.projectId next hRow).trans (le_maxSequenceIndex hRow)
      obtain ⟨row, hRow⟩ := List.exists_mem_of_length_pos
        (Nat.lt_of_lt_of_eq (by decide) hFull.symm)
      obtain ⟨⟨hTable, _⟩, hLow⟩ := mem_compactTail hRow
      have hLe : row.sequenceIndex ≤ (maxSequenceIndex table.rows).getD 0 :=
        le_maxSequenceIndex hTable
      rw [hResult]
      simp only [remaining, renumberChunkRows, Prod.Lex.toLex_lt_toLex, true_and]
      omega
  | finished count => exact absurd rfl (hRuns count)

theorem exists_finished (importedIds : List Nat) (hChunk : 0 < chunk)
    (hSound : Sound job state) : Finishes job.projectId importedIds chunk state := by
  induction hLeft : remaining state using WellFoundedLT.induction generalizing state with
  | ind left ih =>
    by_cases hDone : ∃ count, state.phase = .finished count
    · exact ⟨0, hDone⟩
    · refine Finishes.of_step (ih _ ?_ (renumberStep_sound hSound) rfl)
      exact hLeft ▸ remaining_lt hChunk hSound (not_exists.mp hDone)

end Steps

/-! ## Whole runs -/

theorem chunkSize_pos (chunkRows : Option Nat) : 0 < chunkSize chunkRows :=
  Nat.lt_of_lt_of_le Nat.zero_lt_one (Nat.le_max_left _ _)

/-- **Runs among captures and deletions.**  Along every run whose captures in
the park phase find a row above the project's old maximum, no statement meets an
occupied index, the run can always be completed, and when it has completed every
surviving frame of the plan stands at its planned index. -/
theorem chunked_completes (base : FrameTable) (projectId : Nat) (importedIds : List Nat)
    (chunkRows : Option Nat) (actions : List Action) (state : RenumberState)
    (hRun : Run (Guarded (interleave projectId importedIds (chunkSize chunkRows))
        (CaptureFindsParked base projectId))
      (renumberStep projectId importedIds (chunkSize chunkRows) ⟨base, .planning⟩)
      actions state) :
    state.phase ≠ .aborted ∧
      (∃ steps count, (iterateStep
        (renumberStep projectId importedIds (chunkSize chunkRows)) steps state).phase =
          .finished count) ∧
      ∀ count, state.phase = .finished count → ∀ bound,
        renumberBound base projectId importedIds = some bound →
        ∀ position frameId,
          (suffixOrder base projectId (some bound))[position]? = some frameId →
          ∀ row ∈ state.table.rows, row.id = frameId →
            row.sequenceIndex = suffixStart base projectId (some bound) + position := by
  have hChunk := chunkSize_pos chunkRows
  cases hBound : renumberBound base projectId importedIds with
  | none =>
    -- The project is in order: the first transaction already returns.
    have hStart : (renumberStep projectId importedIds (chunkSize chunkRows)
        ⟨base, .planning⟩).phase = .finished 0 := by
      simp [renumberStep, planChunk, hBound]
    have hFinished : state.phase = .finished 0 := by
      refine hRun.of_guarded.invariant (fun state => state.phase = .finished 0) ?_ hStart
      rintro state action _ hFinished rfl
      cases action with
      | chunk => simp only [act, renumberStep, hFinished]
      | write | delete => exact hFinished
    refine ⟨by simp [hFinished], ⟨0, 0, hFinished⟩, ?_⟩
    intro _ _ bound hSome
    cases hSome
  | some bound =>
    let job : Renumber := ⟨base, projectId, bound⟩
    have hPlanned : Sound job (planChunk projectId importedIds (chunkSize chunkRows) base) :=
      planChunk_sound hChunk hBound
    have hSound : Sound job state := by
      refine hRun.invariant (Sound job) ?_ hPlanned
      rintro state action _ hSound ⟨rfl, hGuard⟩
      cases action with
      | chunk => exact renumberStep_sound hSound
      | write => exact write_sound hSound hGuard
      | delete frameId => exact delete_sound hSound
    have hFinishes := exists_finished importedIds hChunk hSound
    refine ⟨?_, hFinishes, ?_⟩
    · intro hAborted
      simp only [Sound, hAborted] at hSound
    · intro count hFinished other hOther position frameId hPosition row hRow hId
      cases hOther
      simp only [Sound, hFinished] at hSound
      have hOrder : row.id ∈ job.plan.order := by
        rw [hId]
        exact List.mem_of_getElem? hPosition
      obtain ⟨frame, _, rfl⟩ := hSound.2.origin row hRow (order_le_lastId hOrder)
      rw [relocate_id] at hId
      have hAt : job.plan.order[position]? = some frame.id := by
        rw [hId]
        exact hPosition
      rw [relocate_zipIdx (planFor_order_nodup job) hAt]
      rfl

/-- Three frames stored in the reverse of their capture order. -/
def reversedTable : FrameTable where
  rows := [⟨1, 7, 1, some 30⟩, ⟨2, 7, 2, some 20⟩, ⟨3, 7, 3, some 10⟩]
  lastId := 3
  distinct := ⟨by decide, by decide⟩
  idsLe := by decide

/-- The state after the planning transaction, one row to a chunk. -/
def reversedPlanned : RenumberState :=
  renumberStep 7 [] (chunkSize (some 1)) ⟨reversedTable, .planning⟩

/-- A capture while frame `3` is parked, and the deletion of that frame: the run
completes, with the two survivors at their planned indexes. -/
theorem chunked_completes_after_capture :
    ∃ state, Run (Guarded (interleave 7 [] (chunkSize (some 1)))
        (CaptureFindsParked reversedTable 7)) reversedPlanned
        [.write 7 40, .delete 3, .chunk, .chunk, .chunk, .chunk, .chunk, .chunk] state ∧
      state.phase = .finished 3 ∧
      state.table.rows.map (fun row => (row.id, row.sequenceIndex)) = [(1, 3), (2, 2), (4, 4)] ∧
      ∃ steps count, (iterateStep (renumberStep 7 [] (chunkSize (some 1))) steps state).phase =
        .finished count := by
  have hRun : Run (Guarded (interleave 7 [] (chunkSize (some 1)))
      (CaptureFindsParked reversedTable 7)) reversedPlanned
      [.write 7 40, .delete 3, .chunk, .chunk, .chunk, .chunk, .chunk, .chunk] _ :=
    .cons ⟨rfl, fun _ => by decide⟩ (.cons ⟨rfl, trivial⟩ (.cons ⟨rfl, trivial⟩
      (.cons ⟨rfl, trivial⟩ (.cons ⟨rfl, trivial⟩ (.cons ⟨rfl, trivial⟩
        (.cons ⟨rfl, trivial⟩ (.cons ⟨rfl, trivial⟩ (.nil _))))))))
  refine ⟨_, hRun, by decide, by decide, ?_⟩
  exact (chunked_completes reversedTable 7 [] (some 1) _ _ hRun).2.1

/-- Frame `3` is parked first and deleted at once; the next capture then takes
index `3`, which is the planned index of frame `1`, and the last assign chunk
raises. -/
theorem chunked_collides_after_deletes :
    ∃ state, Run (interleave 7 [] (chunkSize (some 1))) reversedPlanned
        [.delete 3, .write 7 40, .chunk, .chunk, .chunk, .chunk, .chunk] state ∧
      state.phase = .aborted := by
  refine ⟨_, .cons rfl (.cons rfl (.cons rfl (.cons rfl (.cons rfl (.cons rfl
    (.cons rfl (.nil _))))))), ?_⟩
  decide

end TimelapseManager.Storage
