import TimelapseManager.Monitoring.DispatcherInvariant

/-!
# What a step of the dispatcher does

A step logs an event, launches a batch, or `Advances`: it keeps the invariant and the table, moves
the cursor forward only, keeps the progress of the running dispatcher, and makes no mark but the
ones of a start.  Every later result about single steps is read off `dispatcherStep_turns`.
-/

namespace TimelapseManager.Monitoring

open LowWater DispatcherState

/-! ## Where the marks come from -/

/-- The newest event, for a start that begins there. -/
def DispatcherState.gaveUp (state : DispatcherState) (step : DispatcherStep) : Option ℕ :=
  match step, state.phase with
  | .load .cursorUnreadable, .loading newest => some newest
  | .initialise _, .initialising newest => some newest
  | _, _ => none

def CursorRow.marks (row : CursorRow) : List ℕ := [row.lastEventId, row.lastReadEventId]

def Dispatcher.marks (dispatcher : Dispatcher) : List ℕ :=
  [dispatcher.highWaterMark, dispatcher.autoClearFloor]

def LoopPoint.marks : LoopPoint → List ℕ
  | .persisting marks => marks.marks
  | _ => []

def DispatcherPhase.marks : DispatcherPhase → List ℕ
  | .running dispatcher point => dispatcher.marks ++ point.marks
  | .stopping dispatcher => dispatcher.marks
  | .saving dispatcher marks => dispatcher.marks ++ marks.marks
  | .stopped dispatcher => dispatcher.marks
  | _ => []

/-- Every mark that is stored or on its way there. -/
def DispatcherState.marks (state : DispatcherState) : List ℕ :=
  state.cursor.elim [] CursorRow.marks ++ state.lateWrites.flatMap CursorRow.marks ++
    state.phase.marks

/-- The marks whose write the process waits for. -/
def DispatcherPhase.writing : DispatcherPhase → Option CursorRow
  | .running _ (.persisting marks) => some marks
  | .saving _ marks => some marks
  | _ => none

variable {catchupMaxAge : ℤ} {state next : DispatcherState} {step : DispatcherStep} {id mark : ℕ}
  {dispatcher old new : Dispatcher} {phase before : DispatcherPhase} {marks : CursorRow}
  {cursor : Option CursorRow} {lateWrites : List CursorRow}

theorem DispatcherState.mem_marks :
    mark ∈ state.marks ↔ (∃ row, state.cursor = some row ∧ mark ∈ row.marks) ∨
      (∃ late ∈ state.lateWrites, mark ∈ late.marks) ∨
      (∃ dispatcher, state.phase.life = some dispatcher ∧ mark ∈ dispatcher.marks) ∨
      ∃ marks, state.phase.writing = some marks ∧ mark ∈ marks.marks := by
  have hPhase : mark ∈ state.phase.marks ↔
      (∃ dispatcher, state.phase.life = some dispatcher ∧ mark ∈ dispatcher.marks) ∨
        ∃ marks, state.phase.writing = some marks ∧ mark ∈ marks.marks := by
    cases state.phase with
    | running dispatcher point =>
      cases point <;>
        simp [DispatcherPhase.marks, DispatcherPhase.life, DispatcherPhase.writing, LoopPoint.marks]
    | _ => simp [DispatcherPhase.marks, DispatcherPhase.life, DispatcherPhase.writing]
  rw [← hPhase, DispatcherState.marks]
  cases state.cursor with
  | none => simp
  | some row => simp

theorem mem_marks_of_life (hLife : state.phase.life = some dispatcher)
    (hMark : mark ∈ dispatcher.marks) : mark ∈ state.marks :=
  mem_marks.mpr (Or.inr (Or.inr (Or.inl ⟨dispatcher, hLife, hMark⟩)))

theorem SameProgress.marks_eq (hSame : SameProgress old new) : new.marks = old.marks := by
  rw [Dispatcher.marks, hSame.highWaterMark, hSame.autoClearFloor, Dispatcher.marks]

theorem mem_marks_writeCursor (hMark : mark ∈ (writeCursor cursor marks).marks) :
    (∃ row, cursor = some row ∧ mark ∈ row.marks) ∨ mark ∈ marks.marks := by
  cases cursor with
  | none => exact Or.inr hMark
  | some row =>
    simp only [writeCursor, CursorRow.marks, List.mem_cons, List.not_mem_nil, or_false] at hMark ⊢
    simp only [Option.some.injEq, exists_eq_left']
    omega

/-- The mark comes from one that was there, is zero, or is the newest event of a start that
begins there. -/
def MarkFrom (state : DispatcherState) (step : DispatcherStep) (mark : ℕ) : Prop :=
  (∃ old ∈ state.marks, mark ≤ old) ∨ mark = 0 ∨ state.gaveUp step = some mark

theorem MarkFrom.of_mem (hMem : mark ∈ state.marks) : MarkFrom state step mark :=
  Or.inl ⟨mark, hMem, le_refl mark⟩

/-! ## Marks that may be written -/

/-- The marks are on their way, or the dispatcher is to persist them. -/
def DispatcherState.Known (state : DispatcherState) (marks : CursorRow) : Prop :=
  marks ∈ state.lateWrites ∨ state.phase.writing = some marks ∨
    ∃ dispatcher, state.phase.life = some dispatcher ∧ dispatcher.marksToPersist = some marks

section

variable (hInv : DispatcherInv state)
include hInv

theorem DispatcherInv.writing (hWriting : state.phase.writing = some marks) :
    state.MarkOk marks.lastEventId := by
  have hPhase := hInv.phase
  unfold DispatcherPhase.writing at hWriting
  split at hWriting
  case h_3 => cases hWriting
  all_goals
    rename_i hAt
    cases hWriting
    rw [hAt] at hPhase
    exact hPhase

theorem DispatcherInv.lateWrites_eq_nil (hLife : state.phase.life = none) :
    state.lateWrites = [] := by
  have hPhase := hInv.phase
  cases hAt : state.phase with rw [hAt] at hLife hPhase
  | down => exact hPhase
  | loading | initialising => exact hPhase.1
  | _ => cases hLife

variable (hKnown : state.Known marks)
include hKnown

theorem DispatcherInv.known_ok : state.MarkOk marks.lastEventId := by
  rcases hKnown with hLate | hWriting | ⟨dispatcher, hLife, hMarks⟩
  · exact hInv.lateWrites marks hLate
  · exact hInv.writing hWriting
  · exact marksToPersist_ok hLife (hInv.life dispatcher hLife) hMarks

theorem DispatcherInv.known_marks (hMark : mark ∈ marks.marks) : MarkFrom state step mark := by
  rcases hKnown with hLate | hWriting | ⟨dispatcher, hLife, hMarks⟩
  · exact .of_mem (mem_marks.mpr (Or.inr (Or.inl ⟨marks, hLate, hMark⟩)))
  · exact .of_mem (mem_marks.mpr (Or.inr (Or.inr (Or.inr ⟨marks, hWriting, hMark⟩))))
  · refine Or.inl ⟨_, mem_marks_of_life hLife List.mem_cons_self, ?_⟩
    unfold Dispatcher.marksToPersist at hMarks
    dsimp only at hMarks
    split_ifs at hMarks
    cases hMarks
    have hDelivery : dispatcher.deliveryMark ≤ dispatcher.highWaterMark :=
      lowWater_le (hInv.life dispatcher hLife).read
    simp only [CursorRow.marks, List.mem_cons, List.not_mem_nil, or_false] at hMark
    omega

end

/-- A batch that waits for its launch was read from the table. -/
def BatchOk (events : EventTable) : DispatcherPhase → Prop
  | .running dispatcher (.polled batch) =>
    batch ≠ [] ∧
      batch.map PolledEvent.event <+: events.above dispatcher.highWaterMark ∧
      ∀ polled ∈ batch, polled.deliver = !dispatcher.isStaleCatchup polled.event
  | _ => True

theorem DispatcherInv.batch (hInv : DispatcherInv state) : BatchOk state.events state.phase := by
  have hPhase := hInv.phase
  unfold BatchOk
  split
  next hAt =>
    rw [hAt] at hPhase
    exact hPhase
  · trivial

theorem phaseOk_of_life (hLife : phase.life = some dispatcher) (hBatch : BatchOk state.events phase)
    (hWriting : ∀ marks, phase.writing = some marks → state.MarkOk marks.lastEventId) :
    PhaseOk state phase := by
  cases phase with cases hLife
  | running dispatcher point =>
    cases point with
    | idle => exact trivial
    | polled batch => exact hBatch
    | persisting marks => exact hWriting marks rfl
  | saving dispatcher marks => exact hWriting marks rfl
  | stopping | stopped => exact trivial

/-! ## Steps that neither log nor launch -/

structure Advances (state : DispatcherState) (step : DispatcherStep) (next : DispatcherState) :
    Prop where
  inv : DispatcherInv next
  events : next.events = state.events
  cursor : ∀ row, state.cursor = some row →
    ∃ later, next.cursor = some later ∧ row.lastEventId ≤ later.lastEventId
  progress : ∀ old, state.phase.life = some old → step ≠ .crash →
    ∃ new, next.phase.life = some new ∧ SameProgress old new
  marks : ∀ mark ∈ next.marks, MarkFrom state step mark

theorem Advances.refl (hInv : DispatcherInv state) : Advances state step state where
  inv := hInv
  events := rfl
  cursor := fun row hRow => ⟨row, hRow, le_refl _⟩
  progress := fun old hOld _ => ⟨old, hOld, (SameMarks.refl old).toSameProgress⟩
  marks := fun _ hMark => .of_mem hMark

theorem Quiet.advances (hQuiet : Quiet state next) (hInv : DispatcherInv state)
    (hCursor : next.cursor = state.cursor ∨
      ∃ marks, state.Known marks ∧ next.cursor = some (writeCursor state.cursor marks))
    (hLate : ∀ late ∈ next.lateWrites, state.Known late)
    (hWriting : ∀ marks, next.phase.writing = some marks → state.Known marks)
    (hPhase : PhaseOk next next.phase)
    (hProgress : ∀ old, state.phase.life = some old → step ≠ .crash →
      ∃ new, next.phase.life = some new ∧ SameProgress old new) : Advances state step next where
  inv := by
    refine hQuiet.inv hInv ?_ (fun late hMem => hInv.known_ok (hLate late hMem)) hPhase
    intro row hRow
    rcases hCursor with hSame | ⟨marks, hKnown, hWritten⟩
    · exact hInv.cursor row (hSame.symm.trans hRow)
    · exact MarkOk.write hInv.cursor (hInv.known_ok hKnown) (hWritten.symm.trans hRow)
  events := hQuiet.events
  cursor := by
    intro row hRow
    rcases hCursor with hSame | ⟨marks, _, hWritten⟩
    · exact ⟨row, hSame.trans hRow, le_refl _⟩
    · rw [hRow] at hWritten
      exact ⟨_, hWritten, le_max_left _ _⟩
  progress := hProgress
  marks := by
    intro mark hMark
    rcases mem_marks.mp hMark with ⟨row, hRow, hMark⟩ | ⟨late, hMem, hMark⟩ |
      ⟨dispatcher, hLife, hMark⟩ | ⟨marks, hMarks, hMark⟩
    · rcases hCursor with hSame | ⟨marks, hKnown, hWritten⟩
      · exact .of_mem (mem_marks.mpr (Or.inl ⟨row, hSame.symm.trans hRow, hMark⟩))
      · cases hWritten.symm.trans hRow
        rcases mem_marks_writeCursor hMark with hOld | hNew
        · exact .of_mem (mem_marks.mpr (Or.inl hOld))
        · exact hInv.known_marks hKnown hNew
    · exact hInv.known_marks (hLate late hMem) hMark
    · obtain ⟨old, hOld, hSame⟩ := hQuiet.life dispatcher hLife
      rw [hSame.marks_eq] at hMark
      exact .of_mem (mem_marks_of_life hOld hMark)
    · exact hInv.known_marks (hWriting marks hMarks) hMark

section

variable (hInv : DispatcherInv state)
include hInv

/-- The dispatcher goes on; marks are written, or their write is handed on. -/
theorem DispatcherInv.quiet (phase : DispatcherPhase) (hAt : state.phase = before)
    (hBefore : before.life = some old) (hAfter : phase.life = some new) (hSame : SameMarks old new)
    (hBatch : BatchOk state.events phase)
    (hWriting : ∀ marks, phase.writing = some marks → state.Known marks)
    (hLate : ∀ late ∈ lateWrites, state.Known late := by exact fun _ hMem => Or.inl hMem)
    (hCursor : cursor = state.cursor ∨
      ∃ marks, state.Known marks ∧ cursor = some (writeCursor state.cursor marks) := by
        exact Or.inl rfl) :
    Advances state step
      { state with cursor := cursor, phase := phase, lateWrites := lateWrites } := by
  rw [← hAt] at hBefore
  have hQuiet : Quiet state
      { state with cursor := cursor, phase := phase, lateWrites := lateWrites } := by
    refine ⟨rfl, rfl, rfl, ?_⟩
    intro dispatcher hLife
    cases hAfter.symm.trans hLife
    exact ⟨old, hBefore, hSame⟩
  refine hQuiet.advances hInv hCursor hLate hWriting ?_ ?_
  · exact phaseOk_of_life hAfter hBatch fun marks hMarks =>
      hQuiet.markOk (hInv.known_ok (hWriting marks hMarks))
  · intro dispatcher hLife _
    cases hBefore.symm.trans hLife
    exact ⟨new, hAfter, hSame.toSameProgress⟩

/-- The process has no dispatcher afterwards. -/
theorem DispatcherInv.wait (phase : DispatcherPhase)
    (hNone : phase.life = none ∧ phase.writing = none)
    (hBefore : state.phase.life = none ∨ step = .crash)
    (hPhase : PhaseOk { state with phase := phase, lateWrites := lateWrites } phase)
    (hLate : ∀ late ∈ lateWrites, late ∈ state.lateWrites := by exact fun _ hMem => hMem) :
    Advances state step { state with phase := phase, lateWrites := lateWrites } := by
  have hQuiet : Quiet state { state with phase := phase, lateWrites := lateWrites } := by
    refine ⟨rfl, rfl, rfl, ?_⟩
    intro dispatcher hLife
    cases hNone.1.symm.trans hLife
  refine hQuiet.advances hInv (Or.inl rfl) (fun late hMem => Or.inl (hLate late hMem)) ?_ hPhase ?_
  · intro marks hMarks
    cases hNone.2.symm.trans hMarks
  · intro old hOld hNoCrash
    rcases hBefore with hDown | hCrash
    · cases hDown.symm.trans hOld
    · exact absurd hCrash hNoCrash

theorem poll_advances {readable : Bool} (hAt : state.phase = .running dispatcher .idle) :
    Advances state step (state.poll dispatcher readable) := by
  have hEnd : SameMarks dispatcher { dispatcher with positionKnown := true }.endCatchupIfPassed :=
    ⟨⟨by simp, by simp, by simp,
      fun _ hFresh => Dispatcher.endCatchupIfPassed_isStaleCatchup _ hFresh⟩, by simp⟩
  unfold DispatcherState.poll
  dsimp only
  split_ifs with hFull hRead hEmpty
  · exact .refl hInv
  · exact hInv.quiet _ hAt rfl rfl hEnd trivial nofun
  · exact hInv.quiet _ hAt rfl rfl ⟨⟨rfl, rfl, rfl, fun _ hFresh => hFresh⟩, rfl⟩
      ⟨hEmpty, pollNewEvents_prefix dispatcher state.events,
        fun polled hMem => pollNewEvents_deliver hMem⟩ nofun
  · exact hInv.quiet _ hAt rfl rfl hEnd trivial nofun
  · contradiction

theorem settle_advances (hAt : state.phase = before) (hBefore : before.life = some dispatcher)
    (hAfter : phase.life = some (dispatcher.settle id)) (hWriting : phase.writing = before.writing)
    (hBatch : BatchOk state.events before → BatchOk state.events phase) :
    Advances state step (state.settle phase id) := by
  rw [← hAt] at hBefore hWriting hBatch
  have hOld := hInv.life dispatcher hBefore
  have hPending : ∀ other, (state.settle phase id).Pending other → state.Pending other := by
    rintro other ⟨hLogged, hFloor, ⟨settled, hSettled, hOpen⟩ | hNotDone⟩
    · cases hAfter.symm.trans hSettled
      refine ⟨hLogged, hFloor, Or.inl ⟨dispatcher, hBefore, ?_⟩⟩
      exact hOpen.imp_left List.mem_of_mem_filter
    · exact ⟨hLogged, hFloor, Or.inr fun hDone => hNotDone (List.mem_cons_of_mem _ hDone)⟩
  have hMarks : ∀ mark, state.MarkOk mark → (state.settle phase id).MarkOk mark :=
    fun mark hMark => hMark.mono rfl hPending
  refine ⟨⟨fun row hRow => hMarks _ (hInv.cursor row hRow),
    fun marks hMem => hMarks _ (hInv.lateWrites marks hMem), ?_, ?_⟩, rfl,
    fun row hRow => ⟨row, hRow, le_refl _⟩, ?_, ?_⟩
  · intro settled hSettled
    cases hAfter.symm.trans hSettled
    refine ⟨fun other hMem => hOld.positive other (List.mem_of_mem_filter hMem),
      fun other hMem => hOld.read other (List.mem_of_mem_filter hMem),
      fun other hMem => hOld.launched other (List.mem_of_mem_filter hMem), ?_, hOld.mark_le⟩
    intro other hLogged hFloor hRead
    by_cases hSame : other = id
    · exact Or.inr (by rw [hSame]; exact List.mem_cons_self)
    · rcases hOld.handled other hLogged hFloor hRead with hFlight | hDone
      · exact Or.inl (List.mem_filter.mpr ⟨hFlight, by simpa using hSame⟩)
      · exact Or.inr (List.mem_cons_of_mem _ hDone)
  · exact phaseOk_of_life hAfter (hBatch hInv.batch) fun marks hWrites =>
      hMarks _ (hInv.writing (hWriting.symm.trans hWrites))
  · intro old hLife _
    cases hBefore.symm.trans hLife
    exact ⟨_, hAfter, rfl, rfl, rfl, fun _ hFresh => hFresh⟩
  · intro mark hMark
    refine .of_mem (mem_marks.mpr ?_)
    rcases mem_marks.mp hMark with hCursor | hLate | ⟨settled, hSettled, hMark⟩ | ⟨marks, hWrites⟩
    · exact Or.inl hCursor
    · exact Or.inr (Or.inl hLate)
    · cases hAfter.symm.trans hSettled
      exact Or.inr (Or.inr (Or.inl ⟨dispatcher, hBefore, hMark⟩))
    · exact Or.inr (Or.inr (Or.inr ⟨marks, hWriting.symm.trans hWrites.1, hWrites.2⟩))

end

/-! ## Starts -/

theorem Advances.start {position : StartPosition} {floor : ℕ} (hInv : DispatcherInv
      (({ state with cursor := cursor } : DispatcherState).startAt position floor))
    (hLife : state.phase.life = none) (hDelivery : MarkFrom state step position.deliveryMark)
    (hRead : MarkFrom state step position.readMark)
    (hCursor : cursor = state.cursor ∨ state.cursor = none ∧
      ∃ row, cursor = some row ∧ ∀ mark ∈ row.marks, MarkFrom state step mark := by
        exact Or.inl rfl) :
    Advances state step
      (({ state with cursor := cursor } : DispatcherState).startAt position floor) where
  inv := hInv
  events := rfl
  cursor := by
    intro row hRow
    rcases hCursor with hSame | ⟨hNone, _⟩
    · exact ⟨row, hSame.trans hRow, le_refl _⟩
    · cases hNone.symm.trans hRow
  progress := by
    intro old hOld
    cases hLife.symm.trans hOld
  marks := by
    intro mark hMark
    rcases mem_marks.mp hMark with ⟨row, hRow, hMark⟩ | hLate | ⟨started, hStarted, hMark⟩ |
      ⟨_, hNone, _⟩
    · rcases hCursor with hSame | ⟨_, new, hNew, hMarks⟩
      · exact .of_mem (mem_marks.mpr (Or.inl ⟨row, hSame.symm.trans hRow, hMark⟩))
      · cases hNew.symm.trans hRow
        exact hMarks mark hMark
    · exact .of_mem (mem_marks.mpr (Or.inr (Or.inl hLate)))
    · cases hStarted
      have hEither : mark = position.deliveryMark ∨ mark = position.readMark := by
        simpa [Dispatcher.marks, Dispatcher.start] using hMark
      cases hEither with
      | inl hEq => exact hEq ▸ hDelivery
      | inr hEq => exact hEq ▸ hRead
    · cases hNone

section

variable {newest : ℕ} (hInv : DispatcherInv state)
include hInv

theorem load_advances {outcome : LoadOutcome} (hAt : state.phase = .loading newest) :
    Advances state (.load outcome) (state.load catchupMaxAge newest outcome) := by
  have hLife : state.phase.life = none := by rw [hAt]; rfl
  have hPhase := hInv.phase
  rw [hAt] at hPhase
  obtain ⟨hLate, hNewest, hCursor⟩ := hPhase
  cases outcome with
  | cursorUnreadable =>
    have hGaveUp : MarkFrom state (.load .cursorUnreadable) newest :=
      Or.inr (Or.inr (by simp [gaveUp, hAt]))
    exact .start (startAt_newest_inv hLate hNewest hCursor) hLife hGaveUp hGaveUp
  | cursorRead now counted =>
    unfold DispatcherState.load
    dsimp only
    split
    next hNone => exact hInv.wait _ ⟨rfl, rfl⟩ (Or.inl hLife) ⟨hLate, hNewest, hNone⟩
    next row hRow =>
      have hLe := hCursor row hRow
      have hOk := hInv.cursor row hRow
      rw [if_neg (by omega)]
      split_ifs with hFails
      · exact .start (startAt_zero_inv hInv hLate) hLife (Or.inr (Or.inl rfl)) (Or.inr (Or.inl rfl))
      · have hMark : (StartPosition.resume catchupMaxAge row newest now).deliveryMark =
            row.lastEventId := by
          unfold StartPosition.resume
          split_ifs <;> rfl
        have hRead : (StartPosition.resume catchupMaxAge row newest now).readMark =
            min (max row.lastReadEventId row.lastEventId) newest := by
          unfold StartPosition.resume
          split_ifs <;> rfl
        have hOld : ∀ mark ∈ row.marks, mark ∈ state.marks :=
          fun mark hMem => mem_marks.mpr (Or.inl ⟨row, hRow, hMem⟩)
        refine .start (startAt_inv hLate (by rw [hMark]; exact hOk.2) ?_ ?_) hLife ?_ (Or.inl ?_)
        · intro other hOther
          rw [hRow] at hOther
          cases hOther
          exact ⟨hOk.2, Or.inr (le_of_eq hMark.symm)⟩
        · -- Up to the cursor everything is finished: it would be pending otherwise.
          intro id hLogged hFloor hRead
          by_contra hNotDone
          have hAbove := hOk.1 id ⟨hLogged, hFloor, Or.inr hNotDone⟩
          omega
        · rw [hMark]
          exact .of_mem (hOld _ (by simp [CursorRow.marks]))
        · -- The floor is at most the larger of the two stored marks.
          rw [hRead]
          cases le_total row.lastReadEventId row.lastEventId with
          | inl => exact ⟨_, hOld row.lastEventId (by simp [CursorRow.marks]), by omega⟩
          | inr => exact ⟨_, hOld row.lastReadEventId (by simp [CursorRow.marks]), by omega⟩

theorem initialise_advances {written : Bool} (hAt : state.phase = .initialising newest) :
    Advances state (.initialise written) (state.initialise newest written) := by
  have hLife : state.phase.life = none := by rw [hAt]; rfl
  have hGaveUp : MarkFrom state (.initialise written) newest :=
    Or.inr (Or.inr (by simp [gaveUp, hAt]))
  have hPhase := hInv.phase
  rw [hAt] at hPhase
  obtain ⟨hLate, hNewest, hNone⟩ := hPhase
  cases written with
  | true =>
    refine .start (startAt_newest_inv hLate hNewest ?_) hLife hGaveUp hGaveUp
      (Or.inr ⟨hNone, _, rfl, ?_⟩)
    · intro row hRow
      cases hRow
      exact le_refl newest
    · intro mark hMark
      have hEq : mark = newest := by simpa [CursorRow.marks] using hMark
      exact hEq ▸ hGaveUp
  | false =>
    refine .start (startAt_newest_inv hLate hNewest ?_) hLife hGaveUp hGaveUp
    intro row hRow
    rw [hNone] at hRow
    cases hRow

end

/-! ## Every step -/

inductive Turns (state : DispatcherState) : DispatcherStep → DispatcherState → Prop
  | log (event : Event) (hNewer : state.events.newest < event.id) :
      Turns state (.log event) { state with events := state.events.append event hNewer }
  | launch (dispatcher : Dispatcher) (batch : List PolledEvent)
      (hAt : state.phase = .running dispatcher (.polled batch)) :
      Turns state .launch (state.launch dispatcher batch)
  | other (step : DispatcherStep) (next : DispatcherState) (hNoLog : ∀ event, step ≠ .log event)
      (hNoLaunch : step ≠ .launch) (hAdvances : Advances state step next) : Turns state step next

section

variable {point : LoopPoint} (hInv : DispatcherInv state)
include hInv

/-- `begin`: with the newest event known the cursor is loaded, without it the start is at zero. -/
theorem begin_advances (hAt : state.phase = .down) :
    Advances state step { state with phase := .loading state.events.newest } ∧
      Advances state step (state.startAt .atZero state.zeroFloor) := by
  have hLate := hInv.phase
  rw [hAt] at hLate
  have hLife : state.phase.life = none := by rw [hAt]; rfl
  constructor
  · exact hInv.wait _ ⟨rfl, rfl⟩ (Or.inl hLife)
      ⟨hLate, le_refl _, fun row hRow => (hInv.cursor row hRow).2⟩
  · exact .start (startAt_zero_inv hInv hLate) hLife (Or.inr (Or.inl rfl)) (Or.inr (Or.inl rfl))

/-- `persist` and `save`: the write of the dispatcher's marks begins. -/
theorem write_advances (hAt : state.phase = before) (hBefore : before.life = some dispatcher)
    (hMarks : dispatcher.marksToPersist = some marks) (hAfter : phase.life = some dispatcher)
    (hWriting : phase.writing = some marks) (hBatch : BatchOk state.events phase) :
    Advances state step { state with phase := phase } := by
  refine hInv.quiet _ hAt hBefore hAfter (.refl _) hBatch ?_
  intro other hOther
  cases hWriting.symm.trans hOther
  exact Or.inr (Or.inr ⟨dispatcher, by rw [hAt]; exact hBefore, hMarks⟩)

/-- `persisted` and `saved`: the marks are in the row, and the dispatcher knows it. -/
theorem written_advances (hAt : state.phase = before) (hBefore : before.life = some dispatcher)
    (hWriting : before.writing = some marks)
    (hAfter : phase.life = some { dispatcher with persistedMarks := some marks })
    (hNone : phase.writing = none) (hBatch : BatchOk state.events phase) :
    Advances state step { state.write marks with phase := phase } := by
  refine hInv.quiet _ hAt hBefore hAfter ⟨⟨rfl, rfl, rfl, fun _ hFresh => hFresh⟩, rfl⟩ hBatch ?_
    (fun _ hMem => Or.inl hMem) (Or.inr ⟨marks, Or.inr (Or.inl ?_), rfl⟩)
  · intro other hOther
    cases hNone.symm.trans hOther
  · rw [hAt]
    exact hWriting

/-- `stop`: the write that was under way may still come. -/
theorem stop_advances (hAt : state.phase = .running dispatcher point) :
    Advances state step { state with
      phase := .stopping dispatcher
      lateWrites := point.orphaned ++ state.lateWrites } := by
  refine hInv.quiet _ hAt rfl rfl (.refl _) trivial nofun ?_
  intro late hMem
  rcases List.mem_append.mp hMem with hOrphan | hLate
  · cases point with
    | persisting marks =>
      rw [List.mem_singleton.mp hOrphan]
      exact Or.inr (Or.inl (by rw [hAt]; rfl))
    | idle | polled => cases hOrphan
  · exact Or.inl hLate

/-- Only a dispatcher that ran can have left a late write. -/
theorem lateWrite_advances (hMem : marks ∈ state.lateWrites) :
    Advances state step
      { state.write marks with lateWrites := state.lateWrites.erase marks } := by
  cases hLife : state.phase.life with
  | none =>
    rw [hInv.lateWrites_eq_nil hLife] at hMem
    cases hMem
  | some dispatcher =>
    exact hInv.quiet state.phase rfl hLife hLife (.refl _) hInv.batch
      (fun _ hWriting => Or.inr (Or.inl hWriting))
      (fun _ hLate => Or.inl (List.mem_of_mem_erase hLate)) (Or.inr ⟨marks, Or.inl hMem, rfl⟩)

end

/-- Every step of the dispatcher logs, launches or advances. -/
theorem dispatcherStep_turns (hInv : DispatcherInv state)
    (hStep : dispatcherStep catchupMaxAge state step = some next) : Turns state step next := by
  unfold dispatcherStep at hStep
  split at hStep
  case h_1 event =>
    split_ifs at hStep with hNewer
    cases hStep
    exact .log event hNewer
  case h_6 dispatcher batch hAt =>
    cases hStep
    exact .launch dispatcher batch hAt
  case h_17 => cases hStep
  all_goals refine .other _ _ nofun nofun ?_
  case h_2 newestReadable hAt =>
    split_ifs at hStep <;> cases hStep
    · exact (begin_advances hInv hAt).1
    · exact (begin_advances hInv hAt).2
  case h_3 outcome newest hAt =>
    cases hStep
    exact load_advances hInv hAt
  case h_4 written newest hAt =>
    cases hStep
    exact initialise_advances hInv hAt
  case h_5 readable dispatcher hAt =>
    cases hStep
    exact poll_advances hInv hAt
  case h_7 dispatcher batch hAt =>
    -- `abandon`: the batch stays unread.
    cases hStep
    exact hInv.quiet _ hAt rfl rfl (.refl _) trivial nofun
  case h_8 id dispatcher point hAt =>
    split_ifs at hStep
    cases hStep
    refine settle_advances hInv hAt rfl rfl ?_ ?_
    · cases point <;> rfl
    · cases point <;> exact fun hBatch => hBatch
  case h_9 id dispatcher hAt =>
    split_ifs at hStep
    cases hStep
    exact settle_advances hInv hAt rfl rfl rfl fun hBatch => hBatch
  case h_10 dispatcher hAt =>
    split at hStep <;> cases hStep
    · exact .refl hInv
    next marks hMarks => exact write_advances hInv hAt rfl hMarks rfl rfl trivial
  case h_11 written dispatcher marks hAt | h_14 written dispatcher marks hAt =>
    split_ifs at hStep <;> cases hStep
    · exact written_advances hInv hAt rfl rfl rfl rfl trivial
    · exact hInv.quiet _ hAt rfl rfl (.refl _) trivial nofun
  case h_12 dispatcher point hAt =>
    cases hStep
    exact stop_advances hInv hAt
  case h_13 dispatcher hAt =>
    split at hStep <;> cases hStep
    · exact hInv.quiet _ hAt rfl rfl (.refl _) trivial nofun
    next marks hMarks => exact write_advances hInv hAt rfl hMarks rfl rfl trivial
  case h_15 marks =>
    split_ifs at hStep with hMem
    cases hStep
    exact lateWrite_advances hInv hMem
  case h_16 =>
    cases hStep
    exact hInv.wait .down ⟨rfl, rfl⟩ (Or.inr rfl) rfl nofun

end TimelapseManager.Monitoring
