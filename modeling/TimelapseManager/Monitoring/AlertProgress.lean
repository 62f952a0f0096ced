import TimelapseManager.Monitoring.Alerts
import TimelapseManager.Monitoring.DispatcherCursor

/-!
# The read mark and the auto-clear pass

The dispatcher runs the auto-clear pass over a batch before its read mark moves past it.  The pass
is best effort: if its transaction fails, the batch is launched all the same.  A start that has no
cursor to resume from begins at the newest event and runs no pass over what is below.  `missed`
collects the events that were left without a pass in one of these two ways; any other resolving
event that the read mark has passed leaves nothing open that it resolves (`resolved_below_mark`).
-/

namespace TimelapseManager.Monitoring

open Runs

/-! ## The dispatcher with its alerts -/

/-- The dispatcher, the alerts, whether the pass over the batch that was read has run and taken
effect, the passes that outlived their coroutine, and the events that were left without a pass. -/
structure AlertState where
  dispatch : DispatcherState
  history : AlertLog
  pass : Option Bool
  latePasses : List (List ℕ)
  missed : List ℕ

/-- An event is logged with the columns the alerts use; the dispatcher takes a step of its own; the
pass over a batch succeeds or fails; a pass that outlived its coroutine takes effect. -/
inductive ProgressStep
  | log (event : Event) (row : AlertRow)
  | dispatch (step : DispatcherStep)
  | clear (took : Bool)
  | lateClear (ids : List ℕ)

/-- The events of a batch that get a pass. -/
def Dispatcher.clearIds (dispatcher : Dispatcher) (batch : List PolledEvent) : List ℕ :=
  (batch.map fun polled => polled.event.id).filter fun id => dispatcher.autoClearFloor < id

/-- The events a step of the dispatcher leaves without a pass. -/
def AlertState.skipped (state : AlertState) (step : DispatcherStep) : List ℕ :=
  match state.dispatch.gaveUp step with
  | some newest => (state.dispatch.events.rows.map Event.id).filter fun id => id ≤ newest
  | none =>
    match step, state.dispatch.phase with
    | .launch, .running dispatcher (.polled batch) =>
      if state.pass = some false then dispatcher.clearIds batch else []
    | _, _ => []

/-- The steps that may happen while a batch waits for its launch. -/
def DispatcherStep.keepsBatch : DispatcherStep → Bool
  | .settle _ => true
  | .lateWrite _ => true
  | _ => false

/-- The passes that go on without their coroutine after a step. -/
def AlertState.latePassesAfter (state : AlertState) (step : DispatcherStep) : List (List ℕ) :=
  match step, state.dispatch.phase with
  | .crash, _ => []
  | .stop, .running dispatcher (.polled batch) =>
    if state.pass = none then dispatcher.clearIds batch :: state.latePasses
    else state.latePasses
  | _, _ => state.latePasses

/-- The pass of a batch, over the events above the floor. -/
def AlertState.runPass (state : AlertState) (ids : List ℕ) : Option AlertState :=
  (state.history.step (.pass ids)).map fun history => { state with history := history }

def progressStep (catchupMaxAge : ℤ) (state : AlertState) : ProgressStep → Option AlertState
  | .log event row =>
    if row.id = event.id then
      (dispatcherStep catchupMaxAge state.dispatch (.log event)).bind fun dispatch =>
        (state.history.step (.log row)).map fun history =>
          { state with dispatch := dispatch, history := history }
    else none
  | .dispatch (.log _) => none
  | .dispatch step =>
    if step = .launch ∧ state.pass = none then none
    else
      (dispatcherStep catchupMaxAge state.dispatch step).map fun dispatch =>
        { state with
          dispatch := dispatch
          pass := if step.keepsBatch then state.pass else none
          latePasses := state.latePassesAfter step
          missed := state.skipped step ++ state.missed }
  | .clear took =>
    match state.dispatch.phase with
    | .running dispatcher (.polled batch) =>
      if state.pass = none then
        if took then
          (state.runPass (dispatcher.clearIds batch)).map fun after =>
            { after with pass := some true }
        else some { state with pass := some false }
      else none
    | _ => none
  | .lateClear ids =>
    if ids ∈ state.latePasses then
      (state.runPass ids).map fun after =>
        { after with latePasses := state.latePasses.erase ids }
    else none

abbrev ProgressRuns (catchupMaxAge : ℤ) := Steps (progressStep catchupMaxAge)

/-- Before the first start, with an empty log. -/
def AlertState.initial : AlertState :=
  ⟨.beforeFirstStart ⟨[], noEvents.increasing, noEvents.positive⟩, .empty, none, [], []⟩

/-! ## The invariant -/

/-- Every event up to the mark has been in a pass that took effect, or was missed. -/
def AlertState.Seen (state : AlertState) (mark : ℕ) : Prop :=
  mark ≤ state.dispatch.events.newest ∧ ∀ event ∈ state.dispatch.events.rows, event.id ≤ mark →
    event.id ∈ state.history.processed ∨ event.id ∈ state.missed

structure AlertState.Covered (state : AlertState) : Prop where
  dispatch : DispatcherInv state.dispatch
  history : state.history.Sound
  same : ∀ id, (∃ row ∈ state.history.rows, row.id = id) ↔ state.dispatch.Logged id
  seen : ∀ mark ∈ state.dispatch.marks, state.Seen mark
  /-- A pass that took effect was one over the batch that waits. -/
  passed : state.pass = some true → ∀ dispatcher batch,
    state.dispatch.phase = .running dispatcher (.polled batch) →
    ∀ id ∈ dispatcher.clearIds batch, id ∈ state.history.processed

section Covered

variable {catchupMaxAge : ℤ} {state after : AlertState} {mark : ℕ}

namespace AlertState

theorem Seen.le {smaller : ℕ} (hSeen : state.Seen mark) (hLe : smaller ≤ mark) :
    state.Seen smaller :=
  ⟨le_trans hLe hSeen.1, fun event hMem hEvent => hSeen.2 event hMem (le_trans hEvent hLe)⟩

theorem Seen.zero : state.Seen 0 :=
  ⟨Nat.zero_le _, fun event hMem hLe =>
    absurd (state.dispatch.events.positive event hMem) (by omega)⟩

theorem Seen.mono (hSeen : state.Seen mark)
    (hEvents : after.dispatch.events = state.dispatch.events)
    (hProcessed : ∀ id ∈ state.history.processed, id ∈ after.history.processed)
    (hMissed : ∀ id ∈ state.missed, id ∈ after.missed) : after.Seen mark := by
  refine ⟨by rw [hEvents]; exact hSeen.1, ?_⟩
  intro event hMem hLe
  rw [hEvents] at hMem
  exact (hSeen.2 event hMem hLe).imp (hProcessed _) (hMissed _)

theorem Covered.initial : initial.Covered where
  dispatch := beforeFirstStart_inv _
  history := AlertLog.Sound.empty
  same := by simp [AlertState.initial, AlertLog.empty, DispatcherState.beforeFirstStart,
    DispatcherState.Logged]
  seen := by simp [AlertState.initial, DispatcherState.beforeFirstStart, DispatcherState.marks,
    DispatcherPhase.marks]
  passed := by simp [AlertState.initial]

section

variable (hCovered : state.Covered)
include hCovered

theorem Covered.log {event : Event} {row : AlertRow}
    (hStep : progressStep catchupMaxAge state (.log event row) = some after) : after.Covered := by
  obtain ⟨hId, hStep⟩ := Option.ite_none_right_eq_some.mp hStep
  obtain ⟨dispatch, hDispatch, hStep⟩ := Option.bind_eq_some_iff.mp hStep
  obtain ⟨history, hHistory, rfl⟩ := Option.map_eq_some_iff.mp hStep
  have hDispatchInv := dispatcherInv_step hCovered.dispatch hDispatch
  cases dispatcherStep_turns hCovered.dispatch hDispatch with
  | other _ _ hNoLog => exact absurd rfl (hNoLog event)
  | log _ hNewer =>
    have hSound := hCovered.history.step hHistory
    obtain ⟨-, rfl⟩ := of_guard hHistory
    refine ⟨hDispatchInv, hSound, ?_, ?_, ?_⟩
    · intro id
      have hOld := hCovered.same id
      simp only [DispatcherState.Logged, EventTable.append, List.mem_append, List.mem_singleton,
        or_and_right, exists_or, exists_eq_left] at hOld ⊢
      rw [hOld, hId]
    · intro mark hMark
      obtain ⟨hLe, hSeen⟩ := hCovered.seen mark hMark
      refine ⟨le_trans hLe (EventTable.newest_append hNewer), ?_⟩
      intro other hOther hBelow
      cases List.mem_append.mp hOther with
      | inl hOther => exact hSeen other hOther hBelow
      | inr hNew =>
        rw [List.mem_singleton.mp hNew] at hBelow
        omega
    · exact hCovered.passed

theorem Covered.runPass {ids : List ℕ} (hStep : state.runPass ids = some after) :
    after.Covered ∧ after.dispatch = state.dispatch ∧ after.pass = state.pass ∧
      ∀ id ∈ ids, state.dispatch.Logged id → id ∈ after.history.processed := by
  obtain ⟨history, hHistory, rfl⟩ := Option.map_eq_some_iff.mp hStep
  have hSound := hCovered.history.step hHistory
  cases hHistory
  have hProcessed : ∀ id ∈ state.history.processed,
      id ∈ (state.history.batch ids).map AlertRow.id ++ state.history.processed :=
    fun id hMem => List.mem_append_right _ hMem
  refine ⟨⟨hCovered.dispatch, hSound, ?_, ?_, ?_⟩, rfl, rfl, ?_⟩
  · intro id
    rw [← hCovered.same id, autoClearAlertsSync_eq_map]
    constructor
    · rintro ⟨row, hRow, hId⟩
      obtain ⟨old, hOld, rfl⟩ := List.mem_map.mp hRow
      exact ⟨old, hOld, (old.same_passed _).1.symm.trans hId⟩
    · rintro ⟨row, hRow, hId⟩
      exact ⟨_, List.mem_map_of_mem hRow, (row.same_passed _).1.trans hId⟩
  · intro mark hMark
    exact (hCovered.seen mark hMark).mono rfl hProcessed fun _ hMem => hMem
  · intro hPass dispatcher batch hAt id hMem
    exact hProcessed id (hCovered.passed hPass dispatcher batch hAt id hMem)
  · intro id hMem hLogged
    obtain ⟨row, hRow, rfl⟩ := (hCovered.same id).mpr hLogged
    exact List.mem_append_left _ (AlertLog.mem_batch_ids hRow hMem)

theorem Covered.clear {took : Bool}
    (hStep : progressStep catchupMaxAge state (.clear took) = some after) : after.Covered := by
  simp only [progressStep] at hStep
  split at hStep
  next dispatcher batch hAt =>
    obtain ⟨-, hStep⟩ := Option.ite_none_right_eq_some.mp hStep
    split at hStep
    · obtain ⟨middle, hPass, rfl⟩ := Option.map_eq_some_iff.mp hStep
      obtain ⟨hMiddle, hDispatch, -, hIds⟩ := hCovered.runPass hPass
      refine { hMiddle with passed := ?_ }
      intro _ other otherBatch hOther id hMem
      have hSame : state.dispatch.phase = .running other (.polled otherBatch) := by
        rw [← hDispatch]
        exact hOther
      rw [hAt] at hSame
      cases hSame
      refine hIds id hMem ?_
      -- The batch was read from the log.
      have hPhase := hCovered.dispatch.phase
      rw [hAt] at hPhase
      obtain ⟨polled, hPolled, hId⟩ := List.mem_map.mp (List.mem_filter.mp hMem).1
      exact ⟨polled.event, (mem_batch_above hPhase.2.1 hPolled).1, hId⟩
    · cases hStep
      exact { hCovered with passed := by simp }
  · cases hStep

theorem Covered.lateClear {ids : List ℕ}
    (hStep : progressStep catchupMaxAge state (.lateClear ids) = some after) : after.Covered := by
  obtain ⟨-, hStep⟩ := Option.ite_none_right_eq_some.mp hStep
  obtain ⟨middle, hPass, rfl⟩ := Option.map_eq_some_iff.mp hStep
  obtain ⟨hMiddle, -, -, -⟩ := hCovered.runPass hPass
  exact { hMiddle with }

theorem Covered.seen_launch {batch : List PolledEvent}
    (hAt : state.dispatch.phase = .running dispatcher (.polled batch))
    (hEvents : after.dispatch.events = state.dispatch.events)
    (hProcessed : ∀ id ∈ state.history.processed, id ∈ after.history.processed)
    (hMissed : ∀ id ∈ state.missed, id ∈ after.missed) (hBatch : ∀ id ∈ dispatcher.clearIds batch,
      id ∈ after.history.processed ∨ id ∈ after.missed) :
    after.Seen (dispatcher.launch batch).highWaterMark := by
  have hPhase := hCovered.dispatch.phase
  rw [hAt] at hPhase
  obtain ⟨hNonempty, hPrefix, -⟩ := hPhase
  obtain ⟨last, hMemLast, hLastRow, hLastUnread, -, hHigh⟩ := exists_last hPrefix hNonempty
  have hMarks : ∀ mark ∈ dispatcher.marks, after.Seen mark := by
    intro mark hMark
    have hOld := mem_marks_of_life (by rw [hAt]; rfl) hMark
    exact (hCovered.seen mark hOld).mono hEvents hProcessed hMissed
  rw [hHigh]
  refine ⟨by rw [hEvents]; exact EventTable.le_newest hLastRow, ?_⟩
  intro event hMem hLe
  by_cases hRead : event.id ≤ dispatcher.highWaterMark
  · exact (hMarks dispatcher.highWaterMark List.mem_cons_self).2 event hMem hRead
  · by_cases hFloor : event.id ≤ dispatcher.autoClearFloor
    · exact (hMarks dispatcher.autoClearFloor (by simp [Dispatcher.marks])).2 event hMem hFloor
    · rw [hEvents] at hMem
      obtain ⟨polled, hPolled, rfl⟩ := exists_mem_batch hPrefix hMemLast hMem (by omega) hLe
      refine hBatch _ (List.mem_filter.mpr ⟨List.mem_map_of_mem hPolled, ?_⟩)
      exact decide_eq_true (by omega)

theorem Covered.seen_gaveUp {step : DispatcherStep}
    (hGaveUp : state.dispatch.gaveUp step = some mark)
    (hEvents : after.dispatch.events = state.dispatch.events)
    (hMissed : ∀ id ∈ state.skipped step, id ∈ after.missed) : after.Seen mark := by
  constructor
  · rw [hEvents]
    have hPhase := hCovered.dispatch.phase
    unfold DispatcherState.gaveUp at hGaveUp
    split at hGaveUp
    case h_1 hAt | h_2 hAt =>
      cases hGaveUp
      rw [hAt] at hPhase
      exact hPhase.2.1
    case h_3 => cases hGaveUp
  · intro event hMem hLe
    rw [hEvents] at hMem
    refine Or.inr (hMissed _ ?_)
    simp only [skipped, hGaveUp]
    exact List.mem_filter.mpr ⟨List.mem_map_of_mem hMem, decide_eq_true hLe⟩

end

end AlertState

theorem keepsBatch_phase {before : DispatcherState} {step : DispatcherStep}
    {batch : List PolledEvent} (hStep : dispatcherStep catchupMaxAge before step = some next)
    (hKeeps : step.keepsBatch = true) (hAt : next.phase = .running dispatcher (.polled batch)) :
    ∃ old, before.phase = .running old (.polled batch) ∧
      old.autoClearFloor = dispatcher.autoClearFloor := by
  cases step with
  | settle id =>
    cases hBefore : before.phase with
    | running old point =>
      simp only [dispatcherStep, hBefore] at hStep
      obtain ⟨-, rfl⟩ := of_guard hStep
      cases hAt
      exact ⟨old, rfl, rfl⟩
    | stopping old =>
      simp only [dispatcherStep, hBefore] at hStep
      obtain ⟨-, rfl⟩ := of_guard hStep
      cases hAt
    | _ => simp [dispatcherStep, hBefore] at hStep
  | lateWrite marks =>
    obtain ⟨-, rfl⟩ := of_guard hStep
    exact ⟨dispatcher, hAt, rfl⟩
  | _ => cases hKeeps

theorem AlertState.Covered.quiet {step : DispatcherStep} (hCovered : state.Covered)
    (hNoLog : ∀ event, step ≠ .log event) (hNoLaunch : step ≠ .launch)
    (hStep : dispatcherStep catchupMaxAge state.dispatch step = some next) :
    ({ state with
      dispatch := next
      pass := if step.keepsBatch then state.pass else none
      latePasses := state.latePassesAfter step
      missed := state.skipped step ++ state.missed } : AlertState).Covered := by
  have hAdvances : Advances state.dispatch step next := by
    cases dispatcherStep_turns hCovered.dispatch hStep with
    | log event => exact absurd rfl (hNoLog event)
    | launch => exact absurd rfl hNoLaunch
    | other step next _ _ hAdvances => exact hAdvances
  have hEvents := hAdvances.events
  refine ⟨hAdvances.inv, hCovered.history, ?_, ?_, ?_⟩
  · intro id
    rw [hCovered.same id, DispatcherState.Logged, DispatcherState.Logged, hEvents]
  · intro mark hMark
    rcases hAdvances.marks mark hMark with ⟨old, hOld, hLe⟩ | hZero | hGaveUp
    · exact ((hCovered.seen old hOld).le hLe).mono hEvents (fun _ hMem => hMem)
        fun id hMem => List.mem_append_right _ hMem
    · exact hZero ▸ AlertState.Seen.zero
    · exact hCovered.seen_gaveUp hGaveUp hEvents fun id hMem => List.mem_append_left _ hMem
  · intro hPass dispatcher batch hAt
    split_ifs at hPass with hKeeps
    obtain ⟨old, hOld, hFloor⟩ := keepsBatch_phase hStep hKeeps hAt
    have hPassed := hCovered.passed hPass old batch hOld
    unfold Dispatcher.clearIds at hPassed ⊢
    rw [← hFloor]
    exact hPassed

theorem AlertState.Covered.launch (hCovered : state.Covered) (hPass : state.pass ≠ none)
    (hStep : dispatcherStep catchupMaxAge state.dispatch .launch = some next) :
    ({ state with
      dispatch := next
      pass := none
      missed := state.skipped .launch ++ state.missed } : AlertState).Covered := by
  have hDispatchInv := dispatcherInv_step hCovered.dispatch hStep
  cases dispatcherStep_turns hCovered.dispatch hStep
  case other hNoLaunch _ => exact absurd rfl hNoLaunch
  rename_i dispatcher batch hAt
  have hMissed : ∀ id ∈ state.missed, id ∈ state.skipped .launch ++ state.missed :=
    fun id hMem => List.mem_append_right _ hMem
  refine ⟨hDispatchInv, hCovered.history, hCovered.same, ?_, by simp⟩
  intro mark hMark
  -- Only the read mark is new.
  by_cases hOld : mark ∈ state.dispatch.marks
  · exact (hCovered.seen mark hOld).mono rfl (fun _ hMem => hMem) hMissed
  · rcases DispatcherState.mem_marks.mp hMark with hCursor | hLate | ⟨launched, hLife, hMark⟩ |
      ⟨_, hNone, _⟩
    · exact (hOld (DispatcherState.mem_marks.mpr (Or.inl hCursor))).elim
    · exact (hOld (DispatcherState.mem_marks.mpr (Or.inr (Or.inl hLate)))).elim
    · cases hLife
      rcases List.mem_cons.mp hMark with rfl | hFloor
      · refine hCovered.seen_launch hAt rfl (fun _ hMem => hMem) hMissed ?_
        intro id hMem
        -- The pass over the batch took effect or it failed.
        cases hTook : state.pass with
        | none => exact absurd hTook hPass
        | some took =>
          cases took with
          | true => exact Or.inl (hCovered.passed hTook dispatcher batch hAt id hMem)
          | false =>
            refine Or.inr (List.mem_append_left _ ?_)
            simpa [AlertState.skipped, DispatcherState.gaveUp, hAt, hTook] using hMem
      · have hMark : mark ∈ dispatcher.marks :=
          List.mem_cons_of_mem _ (by simpa using hFloor)
        exact (hOld (mem_marks_of_life (by rw [hAt]; rfl) hMark)).elim
    · cases hNone

theorem AlertState.Covered.step {step : ProgressStep} (hCovered : state.Covered)
    (hStep : ProgressRuns catchupMaxAge state step after) : after.Covered := by
  unfold ProgressRuns Steps at hStep
  cases step with
  | log => exact hCovered.log hStep
  | clear took => exact hCovered.clear hStep
  | lateClear ids => exact hCovered.lateClear hStep
  | dispatch step =>
    by_cases hLaunch : step = .launch
    · cases hLaunch
      simp only [progressStep, true_and] at hStep
      obtain ⟨hPass, hStep⟩ := Option.ite_none_left_eq_some.mp hStep
      obtain ⟨next, hNext, rfl⟩ := Option.map_eq_some_iff.mp hStep
      exact hCovered.launch hPass hNext
    · have hNoLog : ∀ event, step ≠ .log event := by
        rintro event rfl
        cases hStep
      rw [progressStep] at hStep
      · obtain ⟨-, hStep⟩ := Option.ite_none_left_eq_some.mp hStep
        obtain ⟨next, hNext, rfl⟩ := Option.map_eq_some_iff.mp hStep
        exact hCovered.quiet hNoLog hLaunch hNext
      · exact hNoLog

end Covered

/-! ## The main result -/

/-- A resolving event the read mark has passed, and that was not missed, leaves no alert of a
smaller id open that it resolves. -/
theorem resolved_below_mark {catchupMaxAge : ℤ} {steps : List ProgressStep} {state : AlertState}
    (hRun : Run (ProgressRuns catchupMaxAge) AlertState.initial steps state)
    {dispatcher : Dispatcher} (hLife : state.dispatch.phase.life = some dispatcher)
    {resolve : AlertRow} (hResolve : resolve ∈ state.history.rows)
    (hPassed : resolve.id ≤ dispatcher.highWaterMark) (hMissed : resolve.id ∉ state.missed) :
    ∀ row ∈ state.history.rows, resolve.Resolves row → row.id < resolve.id →
      row.clearReason ≠ none := by
  have hCovered := hRun.invariant AlertState.Covered
    (fun _ _ _ hStart hStep => hStart.step hStep) AlertState.Covered.initial
  have hMark : dispatcher.highWaterMark ∈ state.dispatch.marks :=
    mem_marks_of_life hLife List.mem_cons_self
  obtain ⟨event, hEvent, hId⟩ := (hCovered.same resolve.id).mp ⟨resolve, hResolve, rfl⟩
  have hSeen := (hCovered.seen _ hMark).2 event hEvent (hId ▸ hPassed)
  rw [hId] at hSeen
  have hProcessed := hSeen.resolve_right hMissed
  intro row hRow hResolves hLess
  exact hCovered.history.cleared resolve hResolve hProcessed row hRow hResolves hLess

/-- Camera 7 goes offline and recovers after the first start, and the batch of both is read. -/
def recoveredCamera (took : Bool) : List ProgressStep :=
  [.dispatch (.begin true), .dispatch (.load (.cursorRead 0 true)),
    .dispatch (.initialise true),
    .log ⟨1, 0⟩ ⟨1, .camera, some 7, some "camera_offline".toList, none⟩,
    .log ⟨2, 0⟩ ⟨2, .camera, some 7, some "camera_recovered".toList, none⟩,
    .dispatch (.poll true), .clear took, .dispatch .launch]

theorem resolved_below_mark_recovered :
    ∃ state dispatcher, Run (ProgressRuns 60) AlertState.initial (recoveredCamera true) state ∧
      state.dispatch.phase.life = some dispatcher ∧ dispatcher.highWaterMark = 2 ∧
      ∃ resolve ∈ state.history.rows, resolve.id = 2 ∧
        ∀ row ∈ state.history.rows, resolve.Resolves row → row.id < resolve.id →
          row.clearReason ≠ none := by
  obtain ⟨state, hRun, ⟨dispatcher, hLife, hMark⟩, ⟨resolve, hResolve, hId⟩, hMissed⟩ :
      ∃ state, Run (ProgressRuns 60) AlertState.initial (recoveredCamera true) state ∧
        (∃ dispatcher ∈ state.dispatch.phase.life, dispatcher.highWaterMark = 2) ∧
        (∃ resolve ∈ state.history.rows, resolve.id = 2) ∧ state.missed = [] :=
    Run.exists_of_exec (by decide +kernel)
  refine ⟨state, dispatcher, hRun, hLife, hMark, resolve, hResolve, hId, ?_⟩
  exact resolved_below_mark hRun hLife hResolve (by omega) (by simp [hMissed])

/-- The pass over the batch fails and the batch is launched: the read mark is past the recovery of
the camera and the alert is open. -/
theorem failed_pass_leaves_alert :
    ∃ state dispatcher, Run (ProgressRuns 60) AlertState.initial (recoveredCamera false) state ∧
      state.dispatch.phase.life = some dispatcher ∧
      ∃ resolve ∈ state.history.rows, resolve.id ≤ dispatcher.highWaterMark ∧
        ∃ row ∈ state.history.rows, resolve.Resolves row ∧ row.id < resolve.id ∧
          row.clearReason = none := by
  obtain ⟨state, hRun, dispatcher, hLife, hResolve⟩ :
      ∃ state, Run (ProgressRuns 60) AlertState.initial (recoveredCamera false) state ∧
        ∃ dispatcher ∈ state.dispatch.phase.life,
          ∃ resolve ∈ state.history.rows, resolve.id ≤ dispatcher.highWaterMark ∧
            ∃ row ∈ state.history.rows, resolve.Resolves row ∧ row.id < resolve.id ∧
              row.clearReason = none := Run.exists_of_exec (by decide +kernel)
  exact ⟨state, dispatcher, hRun, hLife, hResolve⟩

end TimelapseManager.Monitoring
